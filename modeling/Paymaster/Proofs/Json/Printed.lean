import Paymaster.Proofs.Json.RoundTrip
import Paymaster.Text.Lines

/-!
# Written values are printable ASCII

Everything that is written of a value is printable ASCII (`Json.isPrint_write`), and no such code
point ends a line (`CodePoint.IsPrint.endsLine`); so a value is written on one line
(`Json.lines_write`).
-/

namespace Paymaster

theorem CodePoint.IsPrint.endsLine {c : CodePoint} (print : c.IsPrint) : c.endsLine = false := by
  obtain ⟨low, high⟩ := print
  simp only [CodePoint.endsLine, inRanges, List.any_cons, List.any_nil, Bool.or_false,
    Bool.or_eq_false_iff, Bool.and_eq_false_iff, decide_eq_false_iff_not]
  omega

namespace Text

/-- A text of printable ASCII. -/
def IsPrint (t : Text) : Prop :=
  ∀ c ∈ t, c.IsPrint

instance (t : Text) : Decidable t.IsPrint :=
  List.decidableBAll _ t

@[simp] theorem isPrint_nil : IsPrint [] :=
  fun _ none => nomatch none

@[simp] theorem isPrint_cons {c : CodePoint} {t : Text} :
    IsPrint (c :: t) ↔ c.IsPrint ∧ t.IsPrint :=
  List.forall_mem_cons

@[simp] theorem isPrint_append {s t : Text} : IsPrint (s ++ t) ↔ s.IsPrint ∧ t.IsPrint :=
  List.forall_mem_append

theorem isPrint_within {opening closing : CodePoint} {t : Text} :
    IsPrint (within opening closing t) ↔ opening.IsPrint ∧ t.IsPrint ∧ closing.IsPrint := by
  simp [within]

end Text

namespace Json

/-! ## Strings -/

theorem isPrint_digits {ds : List Nat} (small : ∀ d ∈ ds, d < 16) :
    Text.IsPrint (ds.map CodePoint.ofDigit) := by
  have table : ∀ d : Fin 16, (CodePoint.ofDigit d.val).IsPrint := by decide
  intro c member
  obtain ⟨d, inside, rfl⟩ := List.mem_map.mp member
  exact table ⟨d, small d inside⟩

theorem isPrint_escapedUnit (n : Nat) : (escapedUnit n).IsPrint := by
  have digits : Text.IsPrint ((Digits.filled 16 4 n).map CodePoint.ofDigit) :=
    isPrint_digits (Digits.lt_of_mem_filled (by decide))
  rw [escapedUnit, Digits.padded_eq]
  exact Text.isPrint_cons.mpr ⟨by decide, Text.isPrint_cons.mpr ⟨by decide, digits⟩⟩

theorem isPrint_writtenPoint (c : CodePoint) : (writtenPoint .spaced c).IsPrint := by
  by_cases letter : c ∈ lettered
  · have table : (lettered.all fun c => decide (writtenPoint .spaced c).IsPrint) = true := by
      decide
    simpa using List.all_eq_true.mp table c letter
  rw [writtenPoint_of_not_lettered letter]
  split_ifs with print one
  · simpa using print
  · exact isPrint_escapedUnit c.val
  · exact Text.isPrint_append.mpr ⟨isPrint_escapedUnit _, isPrint_escapedUnit _⟩

theorem isPrint_writeText (t : Text) : (writeText .spaced t).IsPrint := by
  refine Text.isPrint_within.mpr ⟨by decide, fun d member => ?_, by decide⟩
  obtain ⟨c, -, written⟩ := List.mem_flatMap.mp member
  exact isPrint_writtenPoint c d written

/-! ## Values -/

theorem isPrint_digitText {ds : List Nat} (small : ∀ d ∈ ds, d < 10) : (digitText ds).IsPrint :=
  isPrint_digits fun d member => Nat.lt_trans (small d member) (by decide)

theorem isPrint_numeral {n : Numeral} (valid : n.Valid) : n.text.IsPrint := by
  obtain ⟨whole, fraction, exponent?⟩ := n
  have point : (Numeral.pointText fraction).IsPrint := by
    cases fraction with
    | nil => exact Text.isPrint_nil
    | cons d rest => exact Text.isPrint_cons.mpr ⟨by decide, isPrint_digitText valid.fraction⟩
  have exponent : (Numeral.exponentText exponent?).IsPrint := by
    cases exponent? with
    | none => exact Text.isPrint_nil
    | some e =>
      have digits : (Digits.padded 10 2 e.natAbs).IsPrint := by
        rw [Digits.padded_eq]
        exact isPrint_digitText (Digits.lt_of_mem_filled (by decide))
      have sign : CodePoint.IsPrint (if e < 0 then '-' else '+') := by
        split_ifs <;> decide
      exact Text.isPrint_cons.mpr ⟨by decide, Text.isPrint_cons.mpr ⟨sign, digits⟩⟩
  exact Text.isPrint_append.mpr ⟨isPrint_digitText valid.whole.small,
    Text.isPrint_append.mpr ⟨point, exponent⟩⟩

theorem isPrint_minus (negative : Bool) : (minus negative).IsPrint := by
  cases negative <;> decide

theorem isPrint_double {d : Double} (normal : d.IsNormal) :
    (d.textWith "Infinity" "NaN").IsPrint := by
  cases d with
  | finite negative m e =>
    have body : (Double.finiteText false m e).IsPrint := by
      by_cases zero : m = 0
      · subst zero
        exact (by decide : Text.IsPrint "0.0")
      · obtain ⟨n, text, valid, -, -⟩ := finiteText_denotes normal zero
        rw [← text]
        exact isPrint_numeral valid
    rw [Double.textWith, finiteText_signed]
    exact Text.isPrint_append.mpr ⟨isPrint_minus negative, body⟩
  | infinite negative => cases negative <;> decide
  | nan => decide

theorem isPrint_scalar {j : Json} (scalar : j.IsScalar) (proper : j.IsProper) :
    (writeIn .spaced j).IsPrint := by
  cases j with
  | null => decide
  | bool b => cases b <;> decide
  | int n =>
    have digits := Digits.lt_of_mem_ofNat (by decide : 2 ≤ 10) (n := n.natAbs)
    rw [writeIn, signedDecimal_eq]
    exact Text.isPrint_append.mpr ⟨isPrint_minus _, isPrint_digitText digits⟩
  | double d => exact isPrint_double proper
  | text t => exact isPrint_writeText t
  | array items => exact scalar.elim
  | object members => exact scalar.elim

theorem isPrint_writeItems {items : List Json}
    (prints : ∀ item ∈ items, (writeIn .spaced item).IsPrint) :
    (writeItems .spaced items).IsPrint := by
  induction items with
  | nil => exact Text.isPrint_nil
  | cons item rest ih =>
    have first := prints item List.mem_cons_self
    have others := ih fun other member => prints other (List.mem_cons_of_mem _ member)
    cases rest with
    | nil => exact first
    | cons next more =>
      rw [writeItems_cons]
      simp only [Text.isPrint_append, Text.isPrint_cons]
      exact ⟨first, by decide, by decide, others⟩

theorem isPrint_writeMembers {members : Entries Text Json}
    (prints : ∀ m ∈ members, (writeIn .spaced m.2).IsPrint) :
    (writeMembers .spaced members).IsPrint := by
  induction members with
  | nil => exact Text.isPrint_nil
  | cons m rest ih =>
    obtain ⟨name, value⟩ := m
    have first : (writeIn .spaced value).IsPrint := prints _ List.mem_cons_self
    have others := ih fun other member => prints other (List.mem_cons_of_mem _ member)
    have named := isPrint_writeText name
    cases rest with
    | nil =>
      rw [writeMembers_single]
      simp only [Text.isPrint_append, Text.isPrint_cons]
      exact ⟨named, by decide, by decide, first⟩
    | cons next more =>
      rw [writeMembers_cons]
      simp only [Text.isPrint_append, Text.isPrint_cons]
      exact ⟨named, by decide, by decide, first, by decide, by decide, others⟩

/-- The written form of a value is printable ASCII. -/
theorem isPrint_write {j : Json} (proper : j.Proper) : (write j).IsPrint := by
  unfold write
  induction j using Json.induction with
  | scalar j scalar => exact isPrint_scalar scalar ((everywhere_scalar scalar).mp proper)
  | array items ih =>
    have items := isPrint_writeItems fun item member =>
      ih item member (proper_array.mp proper item member)
    exact Text.isPrint_within.mpr ⟨by decide, items, by decide⟩
  | object members ih =>
    have members := isPrint_writeMembers fun m member =>
      ih m member ((proper_object.mp proper).2 m member)
    exact Text.isPrint_within.mpr ⟨by decide, members, by decide⟩

/-- A written value is one line of what is printed. -/
theorem lines_write {j : Json} (proper : j.Proper) :
    (Text.ofLines [write j]).lines = [write j] := by
  refine Text.lines_ofLines _ fun line member c inside => ?_
  rw [List.mem_singleton.mp member] at inside
  exact (isPrint_write proper c inside).endsLine

end Json

end Paymaster

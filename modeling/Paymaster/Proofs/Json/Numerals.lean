import Mathlib.Data.List.TakeDrop
import Mathlib.Data.List.TakeWhile
import Paymaster.Json.Reader
import Paymaster.Proofs.Number.Decimal

/-!
# Numerals

A numeral is digits before a point, digits behind it, and an exponent, of which only the first must
be there (`Json.Numeral`). It is taken off the front of a text up to what is no part of one
(`Json.Ends`), and is read as the integer or as the decimal that it denotes
(`Json.readNumber_integer`, `Json.readNumber_decimal`).
-/

namespace Paymaster.Json

/-! ## Digits -/

/-- Digits as they are written. -/
def digitText (ds : List Nat) : Text :=
  ds.map CodePoint.ofDigit

theorem digit_facts {d : Nat} (small : d < 10) :
    (CodePoint.ofDigit d).isAsciiDigit = true ∧ (CodePoint.ofDigit d).val - 48 = d := by
  have table : ∀ d : Fin 10, (CodePoint.ofDigit d.val).isAsciiDigit = true ∧
      (CodePoint.ofDigit d.val).val - 48 = d.val := by decide
  exact table ⟨d, small⟩

/-- What follows a numeral: nothing, or no part of a numeral. -/
def Ends (rest : Text) : Prop :=
  ∀ c ∈ rest.head?, c.isAsciiDigit = false ∧ c ≠ '.' ∧ c ≠ 'e' ∧ c ≠ 'E'

/-- Digits are taken off the front of a text up to what is no digit. -/
theorem digitSpan_digits {ds : List Nat} (small : ∀ d ∈ ds, d < 10) {rest : Text}
    (ends : ∀ c ∈ rest.head?, c.isAsciiDigit = false) :
    digitSpan (digitText ds ++ rest) = (digitText ds, rest) := by
  induction ds with
  | nil =>
    cases rest with
    | nil => rfl
    | cons c rest => simp [digitText, digitSpan, List.span_eq_takeWhile_dropWhile, ends c rfl]
  | cons d ds ih =>
    have further := ih fun d member => small d (List.mem_cons_of_mem _ member)
    have digit := (digit_facts (small d List.mem_cons_self)).1
    unfold digitSpan at further ⊢
    rw [List.span_eq_takeWhile_dropWhile] at further ⊢
    obtain ⟨taken, left⟩ := Prod.mk.inj further
    simp only [digitText, List.map_cons, List.cons_append] at taken left ⊢
    rw [List.takeWhile_cons_of_pos digit, List.dropWhile_cons_of_pos digit, taken, left]

theorem digitsValue_digits {ds : List Nat} (small : ∀ d ∈ ds, d < 10) :
    digitsValue (digitText ds) = Digits.value 10 ds := by
  unfold digitsValue digitText
  rw [List.map_map]
  congr 1
  refine (List.map_congr_left fun d member => ?_).trans (List.map_id ds)
  exact (digit_facts (small d member)).2

/-- Digits before a point: a zero alone, or digits that do not start with zero. -/
structure Leading (ds : List Nat) : Prop where
  small : ∀ d ∈ ds, d < 10
  some : ds ≠ []
  first : ∀ rest, ds = 0 :: rest → rest = []

theorem leading_ofNat (n : Nat) : Leading (Digits.ofNat 10 n) where
  small := Digits.lt_of_mem_ofNat (by decide)
  some := Digits.ofNat_ne_nil
  first := by
    intro rest zero
    by_cases none : n = 0
    · subst none
      simpa [Digits.ofNat, Digits.collect] using zero
    · exact absurd zero (Digits.head_ofNat_ne_zero (by decide) none)

theorem wholeSpan_digits {ds : List Nat} (leading : Leading ds) {rest : Text}
    (ends : ∀ c ∈ rest.head?, c.isAsciiDigit = false) :
    wholeSpan (digitText ds ++ rest) = (digitText ds, rest) := by
  obtain ⟨d, more, rfl⟩ := List.exists_cons_of_ne_nil leading.some
  have spanned := digitSpan_digits leading.small ends
  by_cases zero : d = 0
  · subst zero
    obtain rfl := leading.first more rfl
    rfl
  · have nonzero : CodePoint.ofDigit d ≠ '0' := by
      have table : ∀ d : Fin 10, d.val ≠ 0 → CodePoint.ofDigit d.val ≠ '0' := by decide
      exact table ⟨d, leading.small d List.mem_cons_self⟩ zero
    simp only [digitText, List.map_cons, List.cons_append] at spanned ⊢
    simp only [wholeSpan, if_neg nonzero, spanned]

/-! ## Numerals -/

/-- A number as it is written. -/
structure Numeral where
  whole : List Nat
  /-- The digits behind the point; without any there is no point. -/
  fraction : List Nat
  exponent? : Option Int

namespace Numeral

def pointText : List Nat → Text
  | [] => []
  | ds => '.' :: digitText ds

def exponentText : Option Int → Text
  | none => []
  | some e => 'e' :: (if e < 0 then '-' else '+') :: Digits.padded 10 2 e.natAbs

def text (n : Numeral) : Text :=
  digitText n.whole ++ (pointText n.fraction ++ exponentText n.exponent?)

/-- All digits as one number. -/
def significand (n : Numeral) : Nat :=
  Digits.value 10 (n.whole ++ n.fraction)

/-- The power of ten by which all digits are moved. -/
def scale (n : Numeral) : Int :=
  n.exponent?.getD 0 - n.fraction.length

/-- The digits of a numeral are decimal, and it does not start with a zero too many. -/
structure Valid (n : Numeral) : Prop where
  whole : Leading n.whole
  fraction : ∀ d ∈ n.fraction, d < 10

end Numeral

open Numeral

theorem Ends.noDigit {rest : Text} (ends : Ends rest) :
    ∀ c ∈ rest.head?, c.isAsciiDigit = false :=
  fun c head => (ends c head).1

theorem exponent?_none {rest : Text} (ends : Ends rest) : exponent? rest = none := by
  cases rest with
  | nil => rfl
  | cons c rest => simp [exponent?, (ends c rfl).2.2]

theorem fraction?_none {rest : Text} (noPoint : ∀ c ∈ rest.head?, c ≠ '.') :
    fraction? rest = none := by
  cases rest with
  | nil => rfl
  | cons c rest => simp [fraction?, noPoint c rfl]

theorem fraction?_pointText {ds : List Nat} (nonempty : ds ≠ []) (small : ∀ d ∈ ds, d < 10)
    {rest : Text} (ends : ∀ c ∈ rest.head?, c.isAsciiDigit = false) :
    fraction? (pointText ds ++ rest) = some (digitText ds, rest) := by
  obtain ⟨d, more, rfl⟩ := List.exists_cons_of_ne_nil nonempty
  have spanned := digitSpan_digits small ends
  have some : (digitText (d :: more)).isEmpty = false := rfl
  show fraction? ('.' :: (digitText (d :: more) ++ rest)) = _
  simp only [fraction?, if_true, spanned, some]
  rfl

theorem exponent?_exponentText (e : Int) {rest : Text}
    (ends : ∀ c ∈ rest.head?, c.isAsciiDigit = false) :
    exponent? (exponentText (some e) ++ rest) = some (e, rest) := by
  let ds := Digits.filled 10 2 e.natAbs
  have small : ∀ d ∈ ds, d < 10 := Digits.lt_of_mem_filled (by decide)
  have value : Digits.value 10 ds = e.natAbs := Digits.value_filled (by decide) 2 e.natAbs
  have some : (digitText ds).isEmpty = false := by
    simp [ds, Digits.filled, digitText, Digits.ofNat_ne_nil]
  have spanned := digitSpan_digits small ends
  have signed : Integer.sign ((if e < 0 then '-' else '+') :: (digitText ds ++ rest)) =
      (decide (e < 0), digitText ds ++ rest) := by
    split_ifs with negative
    · simp [Integer.sign, negative]
    · simp [Integer.sign, negative]
  rw [exponentText, Digits.padded_eq]
  show exponent? ('e' :: ((if e < 0 then '-' else '+') :: (digitText ds ++ rest))) = _
  have number : (if decide (e < 0) = true then -(e.natAbs : Int) else e.natAbs) = e := by
    by_cases negative : e < 0
    · rw [if_pos (decide_eq_true negative)]
      omega
    · rw [if_neg (by simpa using negative)]
      omega
  simp only [exponent?, true_or, if_true, signed, spanned, some, digitsValue_digits small, value]
  rw [if_neg (by decide), number]

/-- An exponent, or none, is read off the front of what follows a numeral. -/
theorem exponent?_getD (e? : Option Int) {rest : Text} (ends : Ends rest) :
    (exponent? (exponentText e? ++ rest)).getD (0, exponentText e? ++ rest) =
      (e?.getD 0, rest) := by
  cases e? with
  | none =>
    show (exponent? rest).getD (0, rest) = _
    rw [exponent?_none ends]
    rfl
  | some e =>
    rw [exponent?_exponentText e ends.noDigit]
    rfl

theorem noDigit_exponentText (e? : Option Int) {rest : Text} (ends : Ends rest) :
    ∀ c ∈ (exponentText e? ++ rest).head?, c.isAsciiDigit = false := by
  cases e? with
  | none => exact ends.noDigit
  | some e =>
    intro c head
    cases head
    decide

theorem noDigit_pointText (ds : List Nat) {rest : Text}
    (ends : ∀ c ∈ rest.head?, c.isAsciiDigit = false) :
    ∀ c ∈ (pointText ds ++ rest).head?, c.isAsciiDigit = false := by
  cases ds with
  | nil => exact ends
  | cons d more =>
    intro c head
    cases head
    decide

/-- A numeral with a point or an exponent is read as the decimal that it denotes. -/
theorem readNumber_decimal (negative : Bool) {n : Numeral} (valid : n.Valid)
    (marked : n.fraction ≠ [] ∨ n.exponent? ≠ none) {rest : Text} (ends : Ends rest) :
    readNumber negative (n.text ++ rest) =
      .ok (.double (Double.ofDecimal negative n.significand n.scale), rest) := by
  obtain ⟨whole, fraction, e?⟩ := n
  have some : (digitText whole).isEmpty = false := by
    simp [digitText, valid.whole.some]
  have afterExponent := noDigit_exponentText e? ends
  have span := wholeSpan_digits valid.whole (noDigit_pointText fraction afterExponent)
  rw [Numeral.text, List.append_assoc, List.append_assoc]
  by_cases pointed : fraction = []
  · subst pointed
    obtain ⟨e, rfl⟩ : ∃ e, e? = .some e :=
      Option.ne_none_iff_exists'.mp (marked.resolve_left (· rfl))
    have noPoint : fraction? (exponentText (.some e) ++ rest) = none :=
      fraction?_none fun c head => by
        cases head
        decide
    have read := exponent?_exponentText e ends.noDigit
    simp only [readNumber, span, some]
    simp [pointText, noPoint, read, digitsValue_digits valid.whole.small, Numeral.significand,
      Numeral.scale]
  · have small : ∀ d ∈ whole ++ fraction, d < 10 := fun d member =>
      (List.mem_append.mp member).elim (valid.whole.small d) (valid.fraction d)
    have value : digitsValue (digitText whole ++ digitText fraction) =
        Digits.value 10 (whole ++ fraction) := by
      rw [← digitsValue_digits small, digitText, digitText, digitText, List.map_append]
    have length : (digitText fraction).length = fraction.length := List.length_map _
    have point := fraction?_pointText pointed valid.fraction afterExponent
    simp only [readNumber, span, some, point, exponent?_getD e? ends, value, length]
    rfl

/-- Digits alone are read as an integer, unless there are too many of them. -/
theorem readNumber_integer (negative : Bool) {ds : List Nat} (leading : Leading ds) {rest : Text}
    (ends : Ends rest) : readNumber negative (digitText ds ++ rest) =
      if Integer.digitLimit < ds.length then .error (.integerTooLong ds.length)
      else .ok (.int (if negative then -(Digits.value 10 ds : Int) else Digits.value 10 ds),
        rest) := by
  have some : (digitText ds).isEmpty = false := by
    simp [digitText, leading.some]
  have noPoint : ∀ c ∈ rest.head?, c ≠ '.' := fun c head => (ends c head).2.1
  simp only [readNumber, wholeSpan_digits leading ends.noDigit, some, fraction?_none noPoint,
    exponent?_none ends, digitsValue_digits leading.small]
  simp [digitText]

end Paymaster.Json

import Paymaster.Proofs.Json.Numerals
import Paymaster.Proofs.Number.Shortest

/-!
# Written numbers are read back

Both layouts of a double are numerals of its shortest digits (`Json.positional_denotes`,
`Json.scientific_denotes`); so a double in normal form is read back (`Json.readScalar_double`), and
so is an integer that is written (`Json.readScalar_int`).
-/

namespace Paymaster.Json

open Numeral

/-! ## Layouts of digits -/

/-- Digits that do not start with zero. -/
structure Significant (ds : List Nat) : Prop where
  small : ∀ d ∈ ds, d < 10
  first : ∃ d rest, ds = d :: rest ∧ d ≠ 0

/-- Digits with the same first digit may stand before a point. -/
theorem Significant.leading_of_head {ds others : List Nat} (significant : Significant ds)
    (same : others.head? = ds.head?) (small : ∀ d ∈ others, d < 10) : Leading others := by
  obtain ⟨d, rest, rfl, nonzero⟩ := significant.first
  obtain ⟨more, rfl⟩ := List.head?_eq_some_iff.mp same
  refine ⟨small, List.cons_ne_nil _ _, fun other zero => ?_⟩
  cases zero
  exact absurd rfl nonzero

theorem Significant.leading {ds : List Nat} (significant : Significant ds) : Leading ds :=
  significant.leading_of_head rfl significant.small

/-- A numeral of the digits of a number that is moved by a power of ten. -/
structure Denotes (n : Numeral) (ds : List Nat) (point : Int) : Prop where
  valid : n.Valid
  marked : n.fraction ≠ [] ∨ n.exponent? ≠ none
  value : (n.significand : ℚ) * 10 ^ n.scale = Digits.value 10 ds * 10 ^ (point - ds.length)

theorem pointText_of_ne_nil {ds : List Nat} (nonempty : ds ≠ []) :
    pointText ds = ('.' : CodePoint) :: digitText ds := by
  obtain ⟨d, rest, rfl⟩ := List.exists_cons_of_ne_nil nonempty
  rfl

theorem digitText_zeros (k : Nat) :
    digitText (List.replicate k 0) = List.replicate k ('0' : CodePoint) := by
  have zero : CodePoint.ofDigit 0 = '0' := by decide
  rw [digitText, List.map_replicate, zero]

theorem small_zeros (k : Nat) : ∀ d ∈ List.replicate k 0, d < 10 := by
  intro d member
  rw [List.eq_of_mem_replicate member]
  decide

/-- A number below one is written with zeros behind the point. -/
theorem positional_low {ds : List Nat} (significant : Significant ds) (k : Nat) :
    ∃ n : Numeral, n.text = Double.positional ds (-(k : Int)) ∧ Denotes n ds (-(k : Int)) := by
  have nonempty : List.replicate k 0 ++ ds ≠ [] :=
    List.append_ne_nil_of_right_ne_nil _ significant.leading.some
  refine ⟨⟨[0], List.replicate k 0 ++ ds, none⟩, ?_, ⟨⟨leading_ofNat 0, ?_⟩, .inl nonempty, ?_⟩⟩
  · have digits : digitText (List.replicate k 0 ++ ds) =
        List.replicate k ('0' : CodePoint) ++ ds.map CodePoint.ofDigit := by
      rw [← digitText_zeros]
      exact List.map_append
    rw [Double.positional, if_pos (by omega), Numeral.text, pointText_of_ne_nil nonempty, digits,
      neg_neg, Int.toNat_natCast]
    simp only [exponentText, List.append_nil]
    rfl
  · exact fun d member => (List.mem_append.mp member).elim (small_zeros k d)
      (significant.small d)
  · have value : Digits.value 10 ([0] ++ (List.replicate k 0 ++ ds)) = Digits.value 10 ds := by
      rw [← List.append_assoc, Digits.value_append]
      have zeros : Digits.value 10 ([0] ++ List.replicate k 0) = 0 :=
        Digits.value_replicate_zero 10 (k + 1)
      rw [zeros, Nat.zero_mul, Nat.zero_add]
    simp only [Numeral.significand, Numeral.scale, value, Option.getD_none, List.length_append,
      List.length_replicate]
    congr 2
    push_cast
    ring

/-- The point of a number may stand between its digits. -/
theorem positional_mid {ds : List Nat} (significant : Significant ds) {k : Nat} (positive : 0 < k)
    (inside : k < ds.length) :
    ∃ n : Numeral, n.text = Double.positional ds k ∧ Denotes n ds k := by
  have behind : ds.drop k ≠ [] := by
    simpa using inside
  have leading : Leading (ds.take k) := by
    refine significant.leading_of_head ?_ fun d member =>
      significant.small d (List.mem_of_mem_take member)
    rw [List.head?_take, if_neg positive.ne']
  refine ⟨⟨ds.take k, ds.drop k, none⟩, ?_, ⟨⟨leading, fun d member =>
    significant.small d (List.mem_of_mem_drop member)⟩, .inl behind, ?_⟩⟩
  · have high : ¬ (k : Int) ≤ 0 := by omega
    have full : k - (ds.map CodePoint.ofDigit).length = 0 := by
      rw [List.length_map]
      omega
    have some : ((ds.map CodePoint.ofDigit).drop k).isEmpty = false := by
      simpa using inside
    rw [Double.positional, if_neg high, Numeral.text, pointText_of_ne_nil behind]
    simp only [Int.toNat_natCast, full, some, exponentText, digitText, List.map_take,
      List.map_drop, List.replicate_zero, List.append_nil]
    rw [if_neg (by decide), List.append_assoc]
    rfl
  · simp only [Numeral.significand, Numeral.scale, List.take_append_drop, Option.getD_none,
      List.length_drop]
    congr 2
    push_cast [inside.le]
    ring

/-- A large number is filled up with zeros before the point. -/
theorem positional_high {ds : List Nat} (significant : Significant ds) {k : Nat}
    (beyond : ds.length ≤ k) :
    ∃ n : Numeral, n.text = Double.positional ds k ∧ Denotes n ds k := by
  obtain ⟨more, rfl⟩ := Nat.exists_eq_add_of_le beyond
  have leading : Leading (ds ++ List.replicate more 0) := by
    refine significant.leading_of_head ?_ fun d member =>
      (List.mem_append.mp member).elim (significant.small d) (small_zeros more d)
    obtain ⟨d, rest, rfl, -⟩ := significant.first
    rfl
  refine ⟨⟨ds ++ List.replicate more 0, [0], none⟩, ?_, ⟨⟨leading, ?_⟩, .inl (List.cons_ne_nil _ _),
    ?_⟩⟩
  · have positive : 0 < ds.length := List.length_pos_iff.mpr significant.leading.some
    have high : ¬ ((ds.length + more : Nat) : Int) ≤ 0 := by omega
    have digits : digitText (ds ++ List.replicate more 0) =
        ds.map CodePoint.ofDigit ++ List.replicate more ('0' : CodePoint) := by
      rw [← digitText_zeros]
      exact List.map_append
    have all : (ds.map CodePoint.ofDigit).take (ds.length + more) = ds.map CodePoint.ofDigit :=
      List.take_of_length_le (by simp)
    have none : (ds.map CodePoint.ofDigit).drop (ds.length + more) = [] :=
      List.drop_of_length_le (by simp)
    rw [Double.positional, if_neg high, Numeral.text, digits]
    simp only [Int.toNat_natCast, all, none, exponentText, List.length_map,
      Nat.add_sub_cancel_left]
    rw [List.append_assoc (_ ++ _)]
    rfl
  · exact small_zeros 1
  · have value : Digits.value 10 (ds ++ List.replicate more 0 ++ [0]) =
        Digits.value 10 ds * 10 ^ (more + 1) := by
      rw [List.append_assoc, ← List.replicate_succ', Digits.value_append,
        Digits.value_replicate_zero, List.length_replicate, Nat.add_zero]
    have moved : (10 : ℚ) ^ (more + 1) * 10 ^ (-1 : Int) = 10 ^ (more : Int) := by
      rw [← zpow_natCast, ← zpow_add₀ (by norm_num)]
      congr 1
      push_cast
      ring
    have places : ((ds.length + more : Nat) : Int) - ds.length = more := by
      push_cast
      ring
    simp only [Numeral.significand, Numeral.scale, value, Option.getD_none, List.length_singleton,
      places]
    rw [← moved, ← mul_assoc]
    push_cast
    rfl

theorem positional_denotes {ds : List Nat} (significant : Significant ds) (point : Int) :
    ∃ n : Numeral, n.text = Double.positional ds point ∧ Denotes n ds point := by
  rcases le_or_gt point 0 with low | high
  · obtain ⟨k, same⟩ := Int.eq_ofNat_of_zero_le (show 0 ≤ -point by omega)
    obtain rfl : point = -(k : Int) := by omega
    exact positional_low significant k
  · obtain ⟨k, rfl⟩ := Int.eq_ofNat_of_zero_le high.le
    rcases Nat.lt_or_ge k ds.length with inside | beyond
    · exact positional_mid significant (by omega) inside
    · exact positional_high significant beyond

theorem scientific_denotes {ds : List Nat} (significant : Significant ds) (exponent : Int) :
    ∃ n : Numeral, n.text = Double.scientific ds exponent ∧ Denotes n ds (exponent + 1) := by
  obtain ⟨d, rest, rfl, -⟩ := significant.first
  have leading : Leading [d] := significant.leading_of_head rfl fun other member =>
    significant.small other (List.mem_singleton.mp member ▸ List.mem_cons_self)
  refine ⟨⟨[d], rest, some exponent⟩, ?_, ⟨⟨leading, fun other member =>
    significant.small other (List.mem_cons_of_mem d member)⟩, .inr (by simp), ?_⟩⟩
  · have sign : (if exponent < 0 then "-" else "+" : Text) =
        [if exponent < 0 then ('-' : CodePoint) else '+'] := by
      split_ifs <;> rfl
    unfold Double.scientific
    dsimp only
    rw [sign]
    cases rest with
    | nil => rfl
    | cons next more =>
      simp [Numeral.text, digitText, pointText, exponentText]
      rfl
  · simp only [Numeral.significand, Numeral.scale, Option.getD_some, List.singleton_append,
      List.length_cons]
    congr 2
    push_cast
    ring

/-! ## Written doubles -/

/-- Digits are those that are kept and zeros behind them. -/
theorem exists_dropTrailingZeros (ds : List Nat) :
    ∃ k, ds = Double.dropTrailingZeros ds ++ List.replicate k 0 := by
  have zeros : ds.reverse.takeWhile (· = 0) =
      List.replicate (ds.reverse.takeWhile (· = 0)).length 0 :=
    List.eq_replicate_of_mem fun d member => by simpa using List.mem_takeWhile_imp member
  refine ⟨(ds.reverse.takeWhile (· = 0)).length, ?_⟩
  calc ds = (ds.reverse.takeWhile (· = 0) ++ ds.reverse.dropWhile (· = 0)).reverse := by
        rw [List.takeWhile_append_dropWhile, List.reverse_reverse]
    _ = Double.dropTrailingZeros ds ++ (ds.reverse.takeWhile (· = 0)).reverse :=
        List.reverse_append
    _ = _ := by rw [zeros, List.reverse_replicate, List.length_replicate]

/-- The digits that are kept of a number that is not zero. -/
theorem significant_kept {n : Nat} (nonzero : n ≠ 0) :
    Significant (Double.dropTrailingZeros (Digits.ofNat 10 n)) := by
  obtain ⟨k, parts⟩ := exists_dropTrailingZeros (Digits.ofNat 10 n)
  have first (rest : List Nat) : Digits.ofNat 10 n ≠ 0 :: rest :=
    Digits.head_ofNat_ne_zero (by decide) nonzero
  have small : ∀ d ∈ Digits.ofNat 10 n, d < 10 := Digits.lt_of_mem_ofNat (by decide)
  constructor
  · intro d member
    refine small d ?_
    rw [parts]
    exact List.mem_append_left _ member
  · cases kept : Double.dropTrailingZeros (Digits.ofNat 10 n) with
    | nil =>
      rw [kept, List.nil_append] at parts
      cases k with
      | zero => exact absurd parts Digits.ofNat_ne_nil
      | succ k => exact absurd parts (first _)
    | cons d rest =>
      refine ⟨d, rest, rfl, fun zero => ?_⟩
      rw [kept, zero] at parts
      exact first _ parts

/-- The digits that are kept of a number, moved by the zeros that are dropped. -/
theorem value_kept (n : Nat) (scale : Int) :
    (Digits.value 10 (Double.dropTrailingZeros (Digits.ofNat 10 n)) : ℚ) *
        10 ^ ((Digits.ofNat 10 n).length + scale -
          (Double.dropTrailingZeros (Digits.ofNat 10 n)).length) = n * 10 ^ scale := by
  obtain ⟨k, parts⟩ := exists_dropTrailingZeros (Digits.ofNat 10 n)
  generalize Double.dropTrailingZeros (Digits.ofNat 10 n) = kept at parts ⊢
  have all : n = Digits.value 10 kept * 10 ^ k := by
    calc n = Digits.value 10 (Digits.ofNat 10 n) := (Digits.value_ofNat (by decide) n).symm
      _ = Digits.value 10 (kept ++ List.replicate k 0) := congrArg _ parts
      _ = _ := by
          rw [Digits.value_append, Digits.value_replicate_zero, List.length_replicate,
            Nat.add_zero]
  have moved : ((Digits.ofNat 10 n).length + scale - kept.length : Int) = k + scale := by
    rw [parts, List.length_append, List.length_replicate]
    push_cast
    ring
  rw [moved, zpow_add₀ (by norm_num), zpow_natCast, ← mul_assoc]
  congr 1
  exact_mod_cast all.symm

/-- A double that is written is a numeral of its shortest digits. -/
theorem finiteText_denotes {m : Nat} {e : Int} (normal : Double.Normal m e) (nonzero : m ≠ 0) :
    ∃ n : Numeral, n.text = Double.finiteText false m e ∧ n.Valid ∧
      (n.fraction ≠ [] ∨ n.exponent? ≠ none) ∧
      Double.RoundsTo (n.significand * 10 ^ n.scale) m e := by
  obtain ⟨point, scale, found⟩ : ∃ point scale, Double.shortest m e = (point, scale) :=
    ⟨_, _, rfl⟩
  have rounds := Double.shortest_roundsTo normal nonzero found
  have significant := significant_kept (Double.shortest_ne_zero normal nonzero found)
  have value := value_kept point scale
  let kept := Double.dropTrailingZeros (Digits.ofNat 10 point)
  let exponent : Int := (Digits.ofNat 10 point).length + scale - 1
  have written : Double.finiteText false m e =
      if -4 ≤ exponent ∧ exponent < 16 then Double.positional kept (exponent + 1)
      else Double.scientific kept exponent := by
    simp only [Double.finiteText, if_neg nonzero, found]
    rfl
  obtain ⟨n, text, denotes⟩ : ∃ n : Numeral, n.text = Double.finiteText false m e ∧
      Denotes n kept (exponent + 1) := by
    rw [written]
    split_ifs
    · exact positional_denotes significant _
    · exact scientific_denotes significant _
  refine ⟨n, text, denotes.valid, denotes.marked, ?_⟩
  rw [denotes.value, sub_add_cancel, value]
  exact rounds

/-- A double in normal form is read back. -/
theorem readNumber_double (negative : Bool) {m : Nat} {e : Int} (normal : Double.Normal m e)
    {rest : Text} (ends : Ends rest) :
    readNumber negative (Double.finiteText false m e ++ rest) =
      .ok (.double (.finite negative m e), rest) := by
  by_cases zero : m = 0
  · subst zero
    obtain rfl : e = Double.minExponent := normal.full.resolve_left (by decide)
    have valid : Numeral.Valid ⟨[0], [0], none⟩ := ⟨leading_ofNat 0, small_zeros 1⟩
    exact readNumber_decimal negative valid (.inl (List.cons_ne_nil _ _)) ends
  · obtain ⟨n, text, valid, marked, rounds⟩ := finiteText_denotes normal zero
    rw [← text, readNumber_decimal negative valid marked ends,
      Double.ofDecimal_of_roundsTo negative normal zero rounds]

/-! ## Scalars -/

theorem words_eq : words =
    [(('n' : CodePoint) :: "ull", .null), (('t' : CodePoint) :: "rue", .bool true),
     (('f' : CodePoint) :: "alse", .bool false), (('N' : CodePoint) :: "aN", .double .nan),
     (('I' : CodePoint) :: "nfinity", .double (.infinite false)),
     (('-' : CodePoint) :: ('I' : CodePoint) :: "nfinity", .double (.infinite true))] :=
  rfl

/-- No word starts with a digit, nor with a minus and a digit. -/
theorem word?_digit {c : CodePoint} (digit : c.isAsciiDigit = true) (rest : Text) :
    word? (c :: rest) = none ∧ word? (('-' : CodePoint) :: c :: rest) = none := by
  have other (letter : CodePoint) (noDigit : letter.isAsciiDigit = false) : letter ≠ c := by
    rintro rfl
    rw [digit] at noDigit
    cases noDigit
  have letters : (('n' : CodePoint) ≠ c ∧ ('t' : CodePoint) ≠ c ∧ ('f' : CodePoint) ≠ c) ∧
      ('N' : CodePoint) ≠ c ∧ ('I' : CodePoint) ≠ c ∧ ('-' : CodePoint) ≠ c :=
    ⟨⟨other _ (by decide), other _ (by decide), other _ (by decide)⟩, other _ (by decide),
      other _ (by decide), other _ (by decide)⟩
  constructor
  · simp [word?, words_eq, Text.after?, letters]
  · simp [word?, words_eq, Text.after?, letters]

/-- A minus before a number, or nothing. -/
def minus (negative : Bool) : Text :=
  if negative then ['-'] else []

/-- A text that starts with a digit is read as a number, also behind a minus. -/
theorem readScalar_digit {c : CodePoint} (digit : c.isAsciiDigit = true) (negative : Bool)
    (rest : Text) : readScalar (minus negative ++ c :: rest) = readNumber negative (c :: rest) := by
  obtain ⟨plain, signed⟩ := word?_digit digit rest
  have unsigned : c ≠ '-' := by
    rintro rfl
    exact absurd digit (by decide)
  cases negative with
  | true =>
    show readScalar (('-' : CodePoint) :: c :: rest) = _
    simp [readScalar, signed]
  | false =>
    show readScalar (c :: rest) = _
    simp [readScalar, plain, unsigned]

theorem readScalar_null (rest : Text) : readScalar ("null" ++ rest) = .ok (.null, rest) :=
  rfl

theorem readScalar_true (rest : Text) : readScalar ("true" ++ rest) = .ok (.bool true, rest) :=
  rfl

theorem readScalar_false (rest : Text) : readScalar ("false" ++ rest) = .ok (.bool false, rest) :=
  rfl

theorem signedDecimal_eq (n : Int) :
    Digits.signedDecimal n = minus (n < 0) ++ digitText (Digits.ofNat 10 n.natAbs) := by
  cases n with
  | ofNat n => rfl
  | negSucc n =>
    have negative : decide (Int.negSucc n < 0) = true := by simp [Int.negSucc_lt_zero]
    rw [negative]
    rfl

/-- An integer that is written is read back. -/
theorem readScalar_int {n : Int} (short : n.natAbs < Nat.pow 10 Integer.digitLimit) {rest : Text}
    (ends : Ends rest) :
    readScalar (Digits.signedDecimal n ++ rest) = .ok (.int n, rest) := by
  have leading := leading_ofNat n.natAbs
  have few : ¬Integer.digitLimit < (Digits.ofNat 10 n.natAbs).length := by
    have some : 0 < Integer.digitLimit := by decide
    generalize Integer.digitLimit = limit at some short ⊢
    exact not_lt.mpr (Digits.length_ofNat_le some short)
  have read := readNumber_integer (n < 0) leading ends
  rw [if_neg few, Digits.value_ofNat (by decide)] at read
  obtain ⟨d, more, digits⟩ := List.exists_cons_of_ne_nil leading.some
  have digit := (digit_facts (leading.small d (digits ▸ List.mem_cons_self))).1
  rw [signedDecimal_eq, List.append_assoc]
  rw [digits] at read ⊢
  refine (readScalar_digit digit _ _).trans (read.trans ?_)
  congr 3
  by_cases negative : n < 0
  · rw [if_pos (by simpa using negative)]
    omega
  · rw [if_neg (by simpa using negative)]
    omega

theorem finiteText_signed (negative : Bool) (m : Nat) (e : Int) :
    Double.finiteText negative m e = minus negative ++ Double.finiteText false m e := by
  cases negative <;> rfl

/-- The text of a finite double without its sign starts with a digit. -/
theorem finiteText_head {m : Nat} {e : Int} (normal : Double.Normal m e) :
    ∃ c rest, Double.finiteText false m e = c :: rest ∧ c.isAsciiDigit = true := by
  by_cases zero : m = 0
  · subst zero
    exact ⟨'0', _, rfl, by decide⟩
  · obtain ⟨n, text, valid, -, -⟩ := finiteText_denotes normal zero
    obtain ⟨d, more, digits⟩ := List.exists_cons_of_ne_nil valid.whole.some
    refine ⟨_, _, by rw [← text, Numeral.text, digits]; rfl, ?_⟩
    exact (digit_facts (valid.whole.small d (digits ▸ List.mem_cons_self))).1

/-- A double is read back. -/
theorem readScalar_double {d : Double} (normal : d.IsNormal) {rest : Text} (ends : Ends rest) :
    readScalar (d.textWith "Infinity" "NaN" ++ rest) = .ok (.double d, rest) := by
  cases d with
  | finite negative m e =>
    obtain ⟨c, more, text, digit⟩ := finiteText_head normal
    have read := readNumber_double negative normal ends
    rw [Double.textWith, finiteText_signed, List.append_assoc]
    rw [text] at read ⊢
    exact (readScalar_digit digit negative _).trans read
  | infinite negative => cases negative <;> rfl
  | nan => rfl

end Paymaster.Json

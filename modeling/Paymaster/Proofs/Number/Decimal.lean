import Mathlib.Data.List.Induction
import Paymaster.Proofs.Number.Rounding
import Paymaster.Proofs.Number.Written

/-!
# Decimals

Digits denote what the digits in front denote, moved by the number of those behind, and the
latter (`Digits.value_append`); so the number of the digits of a number tells its size
(`Digits.pow_le_of_length`). A decimal that rounds to a double is converted to it, since its size
is one of those for which powers are computed (`Double.ofDecimal_of_roundsTo`).
-/

namespace Paymaster

namespace Digits

variable {base : Nat}

theorem value_snoc (base : Nat) (ds : List Nat) (d : Nat) :
    value base (ds ++ [d]) = value base ds * base + d := by
  rw [value, List.foldl_append]
  rfl

theorem value_append (base : Nat) (ds es : List Nat) :
    value base (ds ++ es) = value base ds * base ^ es.length + value base es := by
  induction es using List.reverseRecOn with
  | nil => simp [value]
  | append_singleton es e ih =>
    rw [← List.append_assoc, value_snoc, value_snoc, ih, List.length_append, List.length_singleton,
      pow_succ]
    ring

@[simp] theorem value_replicate_zero (base n : Nat) : value base (List.replicate n 0) = 0 := by
  induction n with
  | zero => rfl
  | succ n ih => rw [List.replicate_succ', value_snoc, ih, Nat.zero_mul]

theorem value_lt {ds : List Nat} (small : ∀ d ∈ ds, d < base) :
    value base ds < base ^ ds.length := by
  induction ds using List.reverseRecOn with
  | nil => simp [value]
  | append_singleton ds d ih =>
    have less := ih fun d member => small d (List.mem_append_left _ member)
    have last : d < base := small d (List.mem_append_right _ (List.mem_singleton_self d))
    rw [value_snoc, List.length_append, List.length_singleton, pow_succ]
    have : (value base ds + 1) * base ≤ base ^ ds.length * base := Nat.mul_le_mul_right base less
    rw [Nat.add_mul] at this
    omega

/-- The number of the digits of a number tells its size. -/
theorem pow_le_of_length (two_le : 2 ≤ base) {n : Nat} (nonzero : n ≠ 0) :
    base ^ ((ofNat base n).length - 1) ≤ n ∧ n < base ^ (ofNat base n).length := by
  have some : 0 < (ofNat base n).length := List.length_pos_iff.mpr ofNat_ne_nil
  constructor
  · by_contra less
    by_cases one : (ofNat base n).length = 1
    · rw [one] at less
      simp at less
      omega
    · have fewer : (ofNat base n).length ≤ (ofNat base n).length - 1 :=
        length_ofNat_le (by omega) (not_le.mp less)
      omega
  · have less := value_lt (lt_of_mem_ofNat (n := n) two_le)
    rwa [value_ofNat two_le] at less

/-- The digits of a number do not start with zero, unless it is zero. -/
theorem head_ofNat_ne_zero (two_le : 2 ≤ base) {n : Nat} (nonzero : n ≠ 0) {rest : List Nat} :
    ofNat base n ≠ 0 :: rest := by
  intro digits
  obtain ⟨large, -⟩ := pow_le_of_length two_le nonzero
  have value := value_ofNat two_le n
  have small : ∀ d ∈ rest, d < base := fun d member =>
    lt_of_mem_ofNat two_le d (digits ▸ List.mem_cons_of_mem 0 member)
  have short := value_lt small
  have same : Digits.value base (0 :: rest) = Digits.value base rest := by
    simp [Digits.value]
  rw [digits, same] at value
  rw [digits, List.length_cons, Nat.add_sub_cancel] at large
  omega

/-- The digits of a number with zeros in front up to a width. -/
def filled (base width n : Nat) : List Nat :=
  List.replicate (width - (ofNat base n).length) 0 ++ ofNat base n

theorem padded_eq (base width n : Nat) :
    padded base width n = (filled base width n).map CodePoint.ofDigit := by
  have zero : CodePoint.ofDigit 0 = '0' := by decide
  simp [padded, text, filled, zero]

theorem lt_of_mem_filled (two_le : 2 ≤ base) {width n : Nat} :
    ∀ d ∈ filled base width n, d < base := by
  intro d member
  rcases List.mem_append.mp member with zero | digit
  · rw [List.eq_of_mem_replicate zero]
    omega
  · exact lt_of_mem_ofNat two_le d digit

theorem value_filled (two_le : 2 ≤ base) (width n : Nat) :
    value base (filled base width n) = n := by
  rw [filled, value_append, value_replicate_zero, Nat.zero_mul, Nat.zero_add, value_ofNat two_le]

theorem length_filled {width n : Nat} (some : 0 < width) (small : n < Nat.pow base width) :
    (filled base width n).length = width := by
  have room := length_ofNat_le some small
  rw [filled, List.length_append, List.length_replicate]
  omega

end Digits

namespace Double

/-- A number that rounds to a double is not zero, and lies within the range of doubles. -/
theorem RoundsTo.bounds {q : ℚ} {m : Nat} {e : Int} (rounds : RoundsTo q m e)
    (normal : Normal m e) (nonzero : m ≠ 0) : (2 : ℚ) ^ (-1075 : Int) ≤ q ∧ q < 2 ^ 1024 := by
  have lowest := le_lowEnd m e
  constructor
  · refine le_trans ?_ rounds.low
    have two : (2 : ℚ) ≤ lowEnd m e := by exact_mod_cast (show 2 ≤ lowEnd m e by omega)
    have low := normal.low
    simp only [minExponent] at low
    calc (2 : ℚ) ^ (-1075 : Int) ≤ 2 ^ (e - 1) := zpow_le_zpow_right₀ one_le_two (by omega)
      _ = 2 * 2 ^ (e - 2) := by
        rw [← zpow_one_add₀ two_ne_zero]
        congr 1
        ring
      _ ≤ lowEnd m e * 2 ^ (e - 2) := mul_le_mul_of_nonneg_right two (zpow_pos two_pos _).le
  · refine rounds.high.trans_lt ?_
    have fits := normal.fits
    have most : ((4 * m + 2 : Nat) : ℚ) < 2 ^ 55 := by
      exact_mod_cast (show 4 * m + 2 < 2 ^ 55 by omega)
    have high := normal.high
    simp only [maxExponent] at high
    calc ((4 * m + 2 : Nat) : ℚ) * 2 ^ (e - 2) < 2 ^ 55 * 2 ^ (e - 2) :=
          mul_lt_mul_of_pos_right most (zpow_pos two_pos _)
      _ = 2 ^ ((55 : Nat) + (e - 2)) := by rw [zpow_add₀ two_ne_zero, zpow_natCast]
      _ ≤ 2 ^ ((1024 : Nat) : Int) := zpow_le_zpow_right₀ one_le_two (by push_cast; omega)
      _ = 2 ^ 1024 := zpow_natCast _ _

theorem two_pow_le_ten_pow_range : 2 ^ 1075 ≤ 10 ^ 400 := by
  decide +kernel

/-- The size of a decimal that rounds to a double is one for which powers are computed. -/
theorem RoundsTo.magnitude {significand m : Nat} {e exponent : Int}
    (rounds : RoundsTo (significand * 10 ^ exponent) m e) (normal : Normal m e) (nonzero : m ≠ 0) :
    significand ≠ 0 ∧ -400 ≤ ((Digits.ofNat 10 significand).length : Int) + exponent ∧
      ((Digits.ofNat 10 significand).length : Int) + exponent ≤ 400 := by
  obtain ⟨low, high⟩ := rounds.bounds normal nonzero
  have place : (0 : ℚ) < 10 ^ exponent := zpow_pos (by norm_num) _
  have wide : (2 : ℚ) ^ 1075 ≤ 10 ^ 400 := by exact_mod_cast two_pow_le_ten_pow_range
  have some : significand ≠ 0 := by
    rintro rfl
    rw [Nat.cast_zero, zero_mul] at low
    exact absurd low (not_le.mpr (zpow_pos two_pos _))
  obtain ⟨less, more⟩ := Digits.pow_le_of_length (show 2 ≤ 10 by decide) some
  have length : 0 < (Digits.ofNat 10 significand).length :=
    List.length_pos_iff.mpr Digits.ofNat_ne_nil
  generalize (Digits.ofNat 10 significand).length = places at less more length ⊢
  refine ⟨some, ?_, ?_⟩
  · by_contra small
    have below : (significand : ℚ) * 10 ^ exponent < 10 ^ ((places : Int) + exponent) := by
      rw [zpow_add₀ (by norm_num), zpow_natCast]
      exact mul_lt_mul_of_pos_right (by exact_mod_cast more) place
    have least : (10 : ℚ) ^ ((places : Int) + exponent) ≤ 2 ^ (-1075 : Int) := by
      calc (10 : ℚ) ^ ((places : Int) + exponent) ≤ 10 ^ (-(400 : Nat) : Int) :=
            zpow_le_zpow_right₀ (by norm_num) (by push_cast; omega)
        _ ≤ 2 ^ (-(1075 : Nat) : Int) := by
            rw [zpow_neg, zpow_neg, zpow_natCast, zpow_natCast]
            exact inv_anti₀ (pow_pos two_pos _) wide
    exact absurd low (not_le.mpr (below.trans_le least))
  · by_contra large
    have above : (10 : ℚ) ^ (((places - 1 : Nat) : Int) + exponent) ≤
        significand * 10 ^ exponent := by
      rw [zpow_add₀ (by norm_num), zpow_natCast]
      exact mul_le_mul_of_nonneg_right (by exact_mod_cast less) place.le
    have most : (2 : ℚ) ^ 1024 ≤ 10 ^ (((places - 1 : Nat) : Int) + exponent) := by
      calc (2 : ℚ) ^ 1024 ≤ 2 ^ 1075 := pow_le_pow_right₀ one_le_two (by decide)
        _ ≤ 10 ^ 400 := wide
        _ = 10 ^ ((400 : Nat) : Int) := (zpow_natCast _ _).symm
        _ ≤ _ := zpow_le_zpow_right₀ (by norm_num) (by push_cast; omega)
    exact absurd high (not_lt.mpr (most.trans above))

/-- A decimal that rounds to a double is converted to it. -/
theorem ofDecimal_of_roundsTo (negative : Bool) {m significand : Nat} {e exponent : Int}
    (normal : Normal m e) (nonzero : m ≠ 0)
    (rounds : RoundsTo (significand * 10 ^ exponent) m e) :
    ofDecimal negative significand exponent = .finite negative m e := by
  obtain ⟨some, notSmall, notLarge⟩ := rounds.magnitude normal nonzero
  have computed : ¬(significand = 0 ∨
      ((Digits.ofNat 10 significand).length : Int) + exponent < -400) := by omega
  unfold ofDecimal
  dsimp only
  rw [if_neg computed, if_neg (by omega)]
  split_ifs with whole
  · obtain ⟨k, rfl⟩ := Int.eq_ofNat_of_zero_le whole
    refine ofRatio_of_roundsTo negative normal nonzero (by decide) ?_
    rw [zpow_natCast] at rounds
    simpa using rounds
  · obtain ⟨k, same⟩ := Int.eq_ofNat_of_zero_le (show 0 ≤ -exponent by omega)
    obtain rfl : exponent = -(k : Int) := by omega
    refine ofRatio_of_roundsTo negative normal nonzero (Nat.pow_pos (by decide)) ?_
    rw [zpow_neg, zpow_natCast, ← div_eq_mul_inv] at rounds
    simpa using rounds

/-- What a decimal is converted to has normal form. -/
theorem isNormal_ofDecimal (negative : Bool) (significand : Nat) (exponent : Int) :
    IsNormal (ofDecimal negative significand exponent) := by
  unfold ofDecimal
  dsimp only
  split_ifs
  · exact ⟨by decide, .inr rfl, le_rfl, by decide⟩
  · trivial
  · exact isNormal_ofRatio negative (by decide)
  · exact isNormal_ofRatio negative (Nat.pow_pos (by decide))

end Double

end Paymaster

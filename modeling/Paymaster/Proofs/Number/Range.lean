import Mathlib.Tactic.Linarith
import Mathlib.Tactic.Ring
import Paymaster.Number.Double

/-!
# The integers within the range of doubles

`Double.ofInt?` gives the double nearest to an integer, or nothing where that is no finite
double. Rounding starts with the 53 leading bits of the integer, so a double is missed only
if these bits stand too high, or if they are all ones in the highest place and rounding
carries out of them (`Double.roundDiv_eq_succ_iff`). Hence there is a first size that is out
of range, halfway between the largest double and the power of two above it
(`Double.isSome_ofInt?_iff`).
-/

namespace Paymaster.Double

/-- The middle between the numbers of 54 bits that end in `e` zeros and in one more, above
all of the first kind. -/
def middle (e : Nat) : Nat :=
  (2 ^ 54 - 1) * 2 ^ e

theorem le_middle (e : Nat) : 2 ^ (53 + e) ≤ middle e := by
  rw [middle, Nat.pow_add]
  exact Nat.mul_le_mul_right _ (by omega)

theorem middle_le (e : Nat) : middle e ≤ 2 ^ (54 + e) := by
  rw [middle, Nat.pow_add]
  exact Nat.mul_le_mul_right _ (by omega)

/-- The smallest integer that is beyond the doubles: halfway between the largest double and
the power of two above it. -/
def beyond : Nat :=
  middle 970

/-! ## Rounding a quotient -/

theorem roundDiv_le (num den : Nat) : roundDiv num den ≤ num / den + 1 := by
  simp only [roundDiv]
  split_ifs <;> omega

/-- A quotient between an odd number and the next one is rounded up exactly from the middle
on: the tie goes to the even neighbour, which is the upper one. -/
theorem roundDiv_eq_succ_iff {num den c : Nat} (below : num < (c + 1) * den)
    (odd : c % 2 = 1) : roundDiv num den = c + 1 ↔ (2 * c + 1) * den ≤ 2 * num := by
  have positive : 0 < den := Nat.pos_of_ne_zero fun none => by simp [none] at below
  have parts : den * (num / den) + num % den = num := Nat.div_add_mod num den
  have small : num % den < den := Nat.mod_lt num positive
  have atMost : num / den ≤ c := by
    have := (Nat.div_lt_iff_lt_mul positive).mpr below
    omega
  rcases Nat.lt_or_eq_of_le atMost with lower | same
  · have rounded := roundDiv_le num den
    have bounded : den * (num / den + 1) ≤ den * c := Nat.mul_le_mul_left den lower
    have spread : (2 * c + 1) * den = 2 * (den * c) + den := by ring
    rw [Nat.mul_succ] at bounded
    omega
  · have spread : (2 * c + 1) * den = 2 * (den * c) + den := by ring
    rw [same] at parts
    simp only [roundDiv, same]
    split_ifs <;> omega

/-! ## Rounding an integer -/

/-- An integer and the power of two that leaves its 53 leading bits before the point. -/
theorem le_div_scaled {k : Nat} (nonzero : k ≠ 0) :
    2 ^ 52 ≤ (scaled k 1 ((k.log2 : Int) - 52)).1 / (scaled k 1 ((k.log2 : Int) - 52)).2 := by
  have leading : 2 ^ k.log2 ≤ k := Nat.log2_self_le nonzero
  by_cases high : 0 ≤ (k.log2 : Int) - 52
  · have shift : k.log2 = 52 + ((k.log2 : Int) - 52).toNat := by omega
    simp only [scaled, high, if_true, Nat.one_mul]
    apply (Nat.le_div_iff_mul_le (Nat.pow_pos (by omega))).mpr
    rw [shift, Nat.pow_add] at leading
    exact leading
  · have shift : 52 = k.log2 + (-((k.log2 : Int) - 52)).toNat := by omega
    simp only [scaled, high, if_false, Nat.div_one]
    calc 2 ^ 52 = 2 ^ k.log2 * 2 ^ (-((k.log2 : Int) - 52)).toNat := by
          rw [← Nat.pow_add, ← shift]
      _ ≤ k * Nat.pow 2 (-((k.log2 : Int) - 52)).toNat := Nat.mul_le_mul_right _ leading

/-- The 53 leading bits of an integer, rounded. -/
def leading (k : Nat) : Nat :=
  roundDiv (scaled k 1 ((k.log2 : Int) - 52)).1 (scaled k 1 ((k.log2 : Int) - 52)).2

/-- The exponent of a rounded integer: one more if rounding carries out of 53 bits. -/
def exponentOf (k : Nat) : Int :=
  if leading k = 2 ^ 53 then (k.log2 : Int) - 52 + 1 else (k.log2 : Int) - 52

/-- A rounded integer is finite exactly if its exponent is one of the format. -/
theorem isFinite_ofRatio_one (negative : Bool) {k : Nat} (nonzero : k ≠ 0) :
    (ofRatio negative k 1).isFinite = true ↔ exponentOf k ≤ maxExponent := by
  have reached : ¬ (scaled k 1 ((k.log2 : Int) - 52)).1 / (scaled k 1 ((k.log2 : Int) - 52)).2 <
      Nat.pow 2 52 := Nat.not_lt.mpr (le_div_scaled nonzero)
  have guessed : (k.log2 : Int) - ((1 : Nat).log2 : Int) - 52 = (k.log2 : Int) - 52 := by
    have : (1 : Nat).log2 = 0 := by decide
    omega
  have lowest : max minExponent ((k.log2 : Int) - 52) = (k.log2 : Int) - 52 := by
    simp only [minExponent]
    omega
  simp only [ofRatio, nonzero, if_false, guessed, reached, lowest]
  change (if maxExponent < (if leading k = 2 ^ 53 then (2 ^ 52, _ + 1) else (leading k, _) :
    Nat × Int).2 then infinite negative else _).isFinite = true ↔ _
  have carried : (if leading k = 2 ^ 53 then (2 ^ 52, (k.log2 : Int) - 52 + 1)
      else (leading k, (k.log2 : Int) - 52) : Nat × Int).2 = exponentOf k := by
    simp only [exponentOf]
    split_ifs <;> rfl
  rw [carried]
  by_cases high : maxExponent < exponentOf k
  · simp [high, isFinite]
  · simp [high, isFinite, Int.not_lt.mp high]

/-- Among the integers of one length, rounding carries from the middle of the last step on. -/
theorem leading_eq_iff {k e : Nat} (length : k.log2 = 53 + e) :
    leading k = 2 ^ 53 ↔ middle e ≤ k := by
  have below : k < 2 ^ (k.log2 + 1) := Nat.lt_log2_self
  have exponent : (k.log2 : Int) - 52 = ((e + 1 : Nat) : Int) := by omega
  have quotient : leading k = roundDiv k (2 ^ (e + 1)) := by
    simp only [leading, exponent, scaled, Int.natCast_nonneg, if_true, Int.toNat_natCast,
      Nat.one_mul, Nat.pow_eq]
  have fits : k < (2 ^ 53 - 1 + 1) * 2 ^ (e + 1) := by
    calc k < 2 ^ (k.log2 + 1) := below
      _ = 2 ^ (53 + (e + 1)) := by rw [length, Nat.add_assoc]
      _ = (2 ^ 53 - 1 + 1) * 2 ^ (e + 1) := Nat.pow_add 2 53 (e + 1)
  have doubled : (2 * (2 ^ 53 - 1) + 1) * 2 ^ (e + 1) = 2 * middle e := by
    rw [middle, Nat.pow_succ 2 e]
    ring
  have rounded := roundDiv_eq_succ_iff fits (by decide)
  rw [doubled] at rounded
  rw [quotient]
  exact rounded.trans ⟨fun le => by omega, fun le => by omega⟩

/-- An integer is within the range of doubles exactly if its size is below `beyond`. -/
theorem isSome_ofInt?_iff (n : Int) : (ofInt? n).isSome = true ↔ n.natAbs < beyond := by
  have finite : (ofInt? n).isSome = (ofRatio (n < 0) n.natAbs 1).isFinite := by
    simp only [ofInt?]
    cases ofRatio (n < 0) n.natAbs 1 <;> rfl
  obtain ⟨e, highest, first⟩ : ∃ e : Nat, maxExponent = e + 1 ∧ beyond = middle e :=
    ⟨970, rfl, rfl⟩
  rw [finite, first]
  by_cases zero : n.natAbs = 0
  · have positive : 0 < middle e := lt_of_lt_of_le (Nat.two_pow_pos _) (le_middle e)
    simp [zero, ofRatio, isFinite, positive]
  rw [isFinite_ofRatio_one _ zero, highest]
  generalize n.natAbs = k at zero ⊢
  have low : 2 ^ k.log2 ≤ k := Nat.log2_self_le zero
  have high : k < 2 ^ (k.log2 + 1) := Nat.lt_log2_self
  rcases Nat.lt_trichotomy k.log2 (53 + e) with shorter | same | longer
  · have bounded : 2 ^ (k.log2 + 1) ≤ 2 ^ (53 + e) := Nat.pow_le_pow_right (by omega) shorter
    have fits : exponentOf k ≤ e + 1 := by
      simp only [exponentOf]
      split_ifs <;> omega
    exact iff_of_true fits (high.trans_le (bounded.trans (le_middle e)))
  · have carries := leading_eq_iff same
    simp only [exponentOf, same]
    by_cases carried : leading k = 2 ^ 53
    · have reached : middle e ≤ k := carries.mp carried
      simp only [carried, if_true]
      omega
    · have missed : ¬ middle e ≤ k := mt carries.mpr carried
      simp only [carried, if_false]
      omega
  · have bounded : 2 ^ (54 + e) ≤ 2 ^ k.log2 := Nat.pow_le_pow_right (by omega) (by omega)
    have out : ¬ exponentOf k ≤ e + 1 := by
      simp only [exponentOf]
      split_ifs <;> omega
    exact iff_of_false out (Nat.not_lt.mpr ((middle_le e).trans (bounded.trans low)))

end Paymaster.Double

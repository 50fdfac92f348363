import Paymaster.Proofs.Number.Range
import Paymaster.Time

/-!
# Whole seconds

The seconds of an instant go through a double. A quotient that has fewer than 52 bits before
its point keeps a bit behind it in the nearest double, so the integer part of that double is at
most one more than that of the quotient (`Double.truncate?_ofRatio_le`). Hence the seconds of
an instant after the start of 1970 are hardly late (`Instant.unixSeconds_le`).
-/

namespace Paymaster

namespace Double

/-- Without the bits behind the point, a rounded quotient is at most one too large. -/
theorem roundDiv_div_le {num den k : Nat} (positive : 0 < den) :
    roundDiv (num * 2 ^ k) den / 2 ^ k ≤ num / den + 1 := by
  have above : num < (num / den + 1) * den := by
    rw [Nat.mul_comm]
    exact Nat.lt_mul_div_succ num positive
  have scaledAbove : num * 2 ^ k < (num / den + 1) * 2 ^ k * den := by
    calc num * 2 ^ k < (num / den + 1) * den * 2 ^ k :=
          Nat.mul_lt_mul_of_pos_right above (Nat.two_pow_pos k)
      _ = (num / den + 1) * 2 ^ k * den := by ring
  have quotient : num * 2 ^ k / den < (num / den + 1) * 2 ^ k :=
    (Nat.div_lt_iff_lt_mul positive).mpr scaledAbove
  have rounded : roundDiv (num * 2 ^ k) den ≤ (num / den + 1) * 2 ^ k :=
    (roundDiv_le _ _).trans quotient
  exact Nat.div_le_of_le_mul (by rwa [Nat.mul_comm (2 ^ k) (num / den + 1)])

/-- A quotient with fewer than 52 bits before the point is rounded behind it. -/
theorem ofRatio_of_short {num den : Nat} (nonzero : num ≠ 0) (short : num.log2 < den.log2 + 51) :
    ∃ k : Nat, 2 ≤ k ∧ ofRatio false num den =
      if roundDiv (num * 2 ^ k) den = 2 ^ 53 then .finite false (2 ^ 52) (1 - k)
      else .finite false (roundDiv (num * 2 ^ k) den) (-k) := by
  obtain ⟨e, low, made⟩ : ∃ e : Int, e ≤ -2 ∧ ofRatio false num den =
      let rounded :=
        if roundDiv (scaled num den e).1 (scaled num den e).2 = Nat.pow 2 53 then
          (Nat.pow 2 52, e + 1)
        else (roundDiv (scaled num den e).1 (scaled num den e).2, e)
      if maxExponent < rounded.2 then .infinite false
      else .finite false rounded.1 rounded.2 := by
    let guess : Int := num.log2 - den.log2 - 52
    refine ⟨max minExponent (if (scaled num den guess).1 / (scaled num den guess).2 < Nat.pow 2 52
      then guess - 1 else guess), ?_, if_neg nonzero⟩
    simp only [minExponent, guess]
    split_ifs <;> omega
  refine ⟨(-e).toNat, by omega, ?_⟩
  have behind : scaled num den e = (num * 2 ^ (-e).toNat, den) := if_neg (by omega)
  have finite : ¬ maxExponent < e ∧ ¬ maxExponent < e + 1 := by
    simp only [maxExponent]
    omega
  have back : -((-e).toNat : Int) = e ∧ 1 - ((-e).toNat : Int) = e + 1 := by omega
  rw [made, behind, back.1, back.2]
  by_cases carried : roundDiv (num * 2 ^ (-e).toNat) den = 2 ^ 53
  · simp only [carried, Nat.pow_eq, if_true, finite.2, if_false]
  · simp only [carried, Nat.pow_eq, if_false, finite.1]

/-- The integer part of a quotient with fewer than 52 bits before the point, as a double. -/
theorem truncate?_ofRatio_le {num den : Nat} (positive : 0 < den)
    (short : num.log2 < den.log2 + 51) :
    ∃ n : Nat, (ofRatio false num den).truncate? = some (n : Int) ∧ n ≤ num / den + 1 := by
  by_cases zero : num = 0
  · refine ⟨0, ?_, Nat.zero_le _⟩
    simp only [zero, ofRatio, if_true, truncate?, Nat.zero_mul, Nat.zero_div]
    split_ifs <;> rfl
  · obtain ⟨k, behind, made⟩ := ofRatio_of_short zero short
    refine ⟨roundDiv (num * 2 ^ k) den / 2 ^ k, ?_, roundDiv_div_le positive⟩
    rw [made]
    split_ifs with carried
    · -- The carry moves the point, not the number.
      have same : 2 ^ 53 / 2 ^ k = 2 ^ 52 / 2 ^ (k - 1) := by
        obtain ⟨j, rfl⟩ : ∃ j, k = j + 1 := ⟨k - 1, by omega⟩
        rw [Nat.pow_succ 2 52, Nat.pow_succ, Nat.add_sub_cancel]
        exact Nat.mul_div_mul_right _ _ (by decide)
      have point : ¬ 0 ≤ 1 - (k : Int) ∧ (-(1 - (k : Int))).toNat = k - 1 := by omega
      simp only [truncate?, point.1, if_false, point.2, Nat.pow_eq, carried, same,
        Bool.false_eq_true]
    · have point : ¬ 0 ≤ -(k : Int) ∧ (-(-(k : Int))).toNat = k := by omega
      simp only [truncate?, point.1, if_false, point.2, Nat.pow_eq, Bool.false_eq_true]

end Double

namespace Instant

theorem unixSeconds_le {t : Int} (late : 0 ≤ t) (early : t ≤ last) :
    0 ≤ unixSeconds t ∧ unixSeconds t ≤ t / second + 1 := by
  have bound : t ≤ 253402300799999999 := early
  have bits : t.natAbs.log2 < (1000000 : Nat).log2 + 51 := by
    have million : (1000000 : Nat).log2 = 19 := by decide
    rw [million]
    by_cases zero : t.natAbs = 0
    · rw [zero]
      decide
    · have small : t.natAbs < 2 ^ 58 := by omega
      have := (Nat.log2_lt zero).mpr small
      omega
  obtain ⟨n, whole, atMost⟩ := Double.truncate?_ofRatio_le (by decide) bits
  have value : unixSeconds t = n := by
    have sign : decide (t < 0) = false := decide_eq_false (by omega)
    simp only [unixSeconds, sign, whole, Option.getD_some]
  have seconds : t / second = t / 1000000 := rfl
  omega

end Instant

end Paymaster

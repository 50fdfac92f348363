import Paymaster.Proofs.Number.Exact
import Paymaster.Proofs.Number.Rounding
import Paymaster.Proofs.Number.Seconds

/-!
# Shares in percent

A quotient that is at most a small natural number is rounded to a double that is at most that
number (`Double.ofRatio_atMost`), since the number is one of those that are rounded to. So the
share of a part in percent, rounded to hundredths, stays between 0 and 100
(`Double.percent_within`).
-/

namespace Paymaster.Double

/-- Doubles from zero to a natural number. -/
def Within (most : Nat) (d : Double) : Prop :=
  ∃ v, d.value? = some v ∧ 0 ≤ v ∧ v ≤ most

/-- A double that is not negative, with some bits behind the point, at most a natural number. -/
def AtMost (most : Nat) (d : Double) : Prop :=
  ∃ m bits : Nat, d = .finite false m (-bits) ∧ m ≤ most * 2 ^ bits

theorem AtMost.within {most : Nat} {d : Double} (atMost : AtMost most d) : Within most d := by
  obtain ⟨m, bits, rfl, le⟩ := atMost
  have positive : (0 : ℚ) < 2 ^ bits := pow_pos two_pos bits
  refine ⟨(m : ℚ) / 2 ^ bits, ?_, div_nonneg (Nat.cast_nonneg m) positive.le, ?_⟩
  · simp [value?, signed, div_eq_mul_inv]
  · rw [div_le_iff₀ positive]
    exact_mod_cast le

/-- A quotient that is at most a small natural number is rounded to a double that is so. -/
theorem ofRatio_atMost {num den k : Nat} (positive : 0 < den) (small : k < 2 ^ 14)
    (le : num ≤ k * den) : AtMost k (ofRatio false num den) := by
  by_cases zero : num = 0
  · exact ⟨0, 1074, by simp [ofRatio, zero, minExponent], Nat.zero_le _⟩
  have short : num.log2 < den.log2 + 51 := by
    refine (Nat.log2_lt zero).mpr ?_
    calc num ≤ k * den := le
      _ ≤ 2 ^ 14 * 2 ^ (den.log2 + 1) := Nat.mul_le_mul small.le Nat.lt_log2_self.le
      _ = 2 ^ (den.log2 + 15) := by rw [← Nat.pow_add]; congr 1; omega
      _ < 2 ^ (den.log2 + 51) := Nat.pow_lt_pow_right (by decide) (by omega)
  obtain ⟨bits, two_le, made⟩ := ofRatio_of_short zero short
  have rounded : roundDiv (num * 2 ^ bits) den ≤ k * 2 ^ bits := by
    refine roundDiv_le_of_le positive ?_
    rw [Nat.mul_right_comm]
    exact Nat.mul_le_mul_right _ le
  rw [made]
  split_ifs with carried
  · -- The carry moves the point by one bit.
    obtain ⟨fewer, rfl⟩ : ∃ fewer, bits = fewer + 1 := ⟨bits - 1, by omega⟩
    refine ⟨2 ^ 52, fewer, by congr 1; omega, ?_⟩
    rw [carried, Nat.pow_succ 2 fewer, ← Nat.mul_assoc] at rounded
    omega
  · exact ⟨_, bits, rfl, rounded⟩

theorem scaled_atMost {m bits factor : Nat} :
    scaled (m * factor) 1 (-(-(bits : Int))) = (m * factor, 2 ^ bits) := by
  simp [scaled]

/-- A small multiple of a double that is at most one. -/
theorem AtMost.timesNat {k factor : Nat} {d : Double} (atMost : AtMost k d)
    (small : k * factor < 2 ^ 14) : AtMost (k * factor) (d.timesNat factor) := by
  obtain ⟨m, bits, rfl, le⟩ := atMost
  simp only [Double.timesNat, scaled_atMost]
  refine ofRatio_atMost (Nat.two_pow_pos bits) small ?_
  rw [Nat.mul_right_comm]
  exact Nat.mul_le_mul_right _ le

/-- Rounding to hundredths does not go beyond a natural number. -/
theorem AtMost.roundHundredths {k : Nat} {d : Double} (atMost : AtMost k d)
    (small : k < 2 ^ 14) : AtMost k d.roundHundredths := by
  obtain ⟨m, bits, rfl, le⟩ := atMost
  simp only [Double.roundHundredths, scaled_atMost]
  refine ofRatio_atMost (by decide) small (roundDiv_le_of_le (Nat.two_pow_pos bits) ?_)
  rw [Nat.mul_right_comm]
  exact Nat.mul_le_mul_right _ le

/-- The share of a part in percent, rounded to hundredths. -/
theorem percent_within {part whole : Nat} (le : part ≤ whole) (positive : 0 < whole) :
    Within 100 (((ofRatio false part whole).timesNat 100).roundHundredths) := by
  have share : AtMost 1 (ofRatio false part whole) :=
    ofRatio_atMost positive (by decide) (by rwa [Nat.one_mul])
  have hundredfold := share.timesNat (show 1 * 100 < 2 ^ 14 by decide)
  exact (hundredfold.roundHundredths (by decide)).within

end Paymaster.Double

import Mathlib.Algebra.Order.Field.Rat
import Mathlib.Tactic.Ring
import Paymaster.Number.Double

/-!
# Doubles as numbers

A finite double is a rational number (`Double.value?`). It is read as an integer exactly if
that number is the integer (`Double.toInt?_eq_some_iff`), so nothing is rounded on the way.
-/

namespace Paymaster.Double

/-- A significand with its sign. -/
def signed (negative : Bool) (significand : Nat) : Int :=
  if negative then -(significand : Int) else significand

/-- The number that a double is; infinities and what is no number are none. -/
def value? : Double → Option ℚ
  | .finite negative significand exponent => some ((signed negative significand : ℚ) * 2 ^ exponent)
  | _ => none

theorem signed_mul (negative : Bool) (m k : Nat) :
    signed negative (m * k) = signed negative m * k := by
  cases negative <;> simp [signed]

/-! ## Integral doubles -/

/-- Without bits behind the point a double is an integer. -/
theorem value?_natCast (negative : Bool) (m k : Nat) :
    value? (.finite negative m k) = some ((signed negative (m * 2 ^ k) : Int) : ℚ) := by
  rw [value?, zpow_natCast, signed_mul]
  norm_cast

/-- With `k` bits behind the point a double is an integer exactly if its significand is the
integer with `k` zeros added. -/
theorem value?_neg_natCast (negative : Bool) (m k : Nat) (n : Int) :
    value? (.finite negative m (-(k : Int))) = some (n : ℚ) ↔ signed negative m = n * 2 ^ k := by
  have positive : (2 : ℚ) ^ k ≠ 0 := pow_ne_zero k two_ne_zero
  rw [value?, Option.some.injEq, zpow_neg, zpow_natCast, ← div_eq_mul_inv, div_eq_iff positive]
  exact_mod_cast Iff.rfl

/-- The bits behind the point are zeros exactly if the significand is a multiple. -/
theorem signed_eq_iff (negative : Bool) (m k : Nat) (n : Int) :
    signed negative m = n * 2 ^ k ↔ m % 2 ^ k = 0 ∧ signed negative (m / 2 ^ k) = n := by
  have positive : (2 : Int) ^ k ≠ 0 := pow_ne_zero k two_ne_zero
  constructor
  · intro same
    have divides : 2 ^ k ∣ m := by
      have multiple : (2 : Int) ^ k ∣ signed negative m := ⟨n, by rw [same, mul_comm]⟩
      have plain : (2 : Int) ^ k ∣ (m : Int) := by
        cases negative with
        | true => exact Int.dvd_neg.mp multiple
        | false => exact multiple
      exact_mod_cast plain
    obtain ⟨q, rfl⟩ := divides
    refine ⟨Nat.mul_mod_right _ _, ?_⟩
    rw [mul_comm, signed_mul] at same
    rw [Nat.mul_div_cancel_left _ (Nat.two_pow_pos k)]
    exact mul_right_cancel₀ positive (by exact_mod_cast same)
  · rintro ⟨whole, rfl⟩
    have parts : m / 2 ^ k * 2 ^ k = m := Nat.div_mul_cancel (Nat.dvd_of_mod_eq_zero whole)
    have product := signed_mul negative (m / 2 ^ k) (2 ^ k)
    rw [parts] at product
    exact_mod_cast product

/-- A double is read as an integer exactly if it is that integer. -/
theorem toInt?_eq_some_iff (d : Double) (n : Int) :
    d.toInt? = some n ↔ d.value? = some (n : ℚ) := by
  rcases d with ⟨negative, m, e⟩ | negative | _
  · rcases Int.le_total 0 e with whole | fraction
    · obtain ⟨k, rfl⟩ := Int.eq_ofNat_of_zero_le whole
      rw [value?_natCast, Option.some.injEq, Int.cast_inj]
      simp only [toInt?, truncate?, whole, true_or, if_true, Int.toNat_natCast, Nat.pow_eq,
        Option.some.injEq, signed]
    · obtain ⟨k, same⟩ := Int.eq_ofNat_of_zero_le (Int.neg_nonneg.mpr fraction)
      obtain rfl : e = -(k : Int) := by omega
      rw [value?_neg_natCast, signed_eq_iff]
      rcases Nat.eq_zero_or_pos k with rfl | positive
      · simp [toInt?, truncate?, signed, Nat.mod_one]
      · have behind : ¬ 0 ≤ -(k : Int) := by omega
        by_cases zeros : m % 2 ^ k = 0
        · simp only [toInt?, truncate?, behind, zeros, neg_neg, Int.toNat_natCast, Nat.pow_eq,
            or_true, if_true, if_false, Option.some.injEq, true_and, signed]
        · simp only [toInt?, behind, zeros, neg_neg, Int.toNat_natCast, Nat.pow_eq, or_self,
            if_false, reduceCtorEq, false_and]
  · simp [toInt?, value?]
  · simp [toInt?, value?]

end Paymaster.Double

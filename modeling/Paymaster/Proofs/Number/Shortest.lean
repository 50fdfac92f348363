import Paymaster.Number.Shortest
import Paymaster.Proofs.Number.Rounding

/-!
# Shortest digits round back

The digits of a double are looked for on decimal grids, from one that is coarser than the double
downwards. A point that is found rounds to the double (`Double.roundsTo_of_gridPoint?`). Where the
grid is finer than half a place of the double, the point next to it is found
(`Double.gridPoint?_of_fine`). The first grid is guessed from the length of the double with an
error of one bit at most (`Double.places_le`), so eighteen grids below it the grid is that fine,
and the search ends with a point (`Double.shortest_roundsTo`).
-/

namespace Paymaster.Double

/-! ## Points of a grid -/

/-- The numerator of a binary place in decimal places. -/
def placeNum (unit scale : Int) : Nat :=
  Nat.pow 2 unit.toNat * Nat.pow 10 (-scale).toNat

def placeDen (unit scale : Int) : Nat :=
  Nat.pow 2 (-unit).toNat * Nat.pow 10 scale.toNat

theorem placeDen_pos (unit scale : Int) : 0 < placeDen unit scale :=
  Nat.mul_pos (Nat.two_pow_pos _) (Nat.pow_pos (by decide))

theorem place_eq (unit scale : Int) :
    (placeNum unit scale : ℚ) / placeDen unit scale = 2 ^ unit / 10 ^ scale := by
  have ratio {base : ℚ} (nonzero : base ≠ 0) (n : Int) :
      base ^ n = base ^ n.toNat / base ^ (-n).toNat := by
    rw [eq_div_iff (pow_ne_zero _ nonzero), ← zpow_natCast, ← zpow_natCast, ← zpow_add₀ nonzero]
    congr 1
    omega
  rw [ratio two_ne_zero unit, ratio (show (10 : ℚ) ≠ 0 by norm_num) scale, div_div_div_eq]
  simp only [placeNum, placeDen, Nat.pow_eq, Nat.cast_mul, Nat.cast_pow, Nat.cast_ofNat]

/-- A decimal grid is finer than twice a binary place. -/
theorem placeDen_lt {unit scale : Int} (fine : (10 : ℚ) ^ scale < 2 ^ (unit + 1)) :
    placeDen unit scale < 2 * placeNum unit scale := by
  have positive : (0 : ℚ) < placeDen unit scale := Nat.cast_pos.mpr (placeDen_pos unit scale)
  have place : (0 : ℚ) < 10 ^ scale := zpow_pos (by norm_num) _
  have twice : (1 : ℚ) < 2 * placeNum unit scale / placeDen unit scale := by
    rw [mul_div_assoc, place_eq, ← mul_div_assoc, lt_div_iff₀ place, one_mul,
      ← zpow_one_add₀ two_ne_zero, add_comm]
    exact fine
  rw [lt_div_iff₀ positive, one_mul] at twice
  exact_mod_cast twice

/-- A point that is found lies between the ends, and is one of them only if these belong to the
interval. -/
theorem gridPoint?_spec {closed : Bool} {low value high num den point : Nat}
    (found : gridPoint? closed low value high num den = some point) :
    low * num ≤ point * den ∧ point * den ≤ high * num ∧
      (closed = true ∨ low * num < point * den ∧ point * den < high * num) := by
  unfold gridPoint? at found
  cases closed with
  | true =>
    simp only [if_true, Bool.and_eq_true, decide_eq_true_eq] at found
    split_ifs at found with inside inside inside
    all_goals
      cases found
      exact ⟨inside.1, inside.2, .inl rfl⟩
  | false =>
    simp only [Bool.false_eq_true, if_false, Bool.and_eq_true, decide_eq_true_eq] at found
    split_ifs at found with inside inside inside
    all_goals
      cases found
      exact ⟨inside.1.le, inside.2.le, .inr inside⟩

/-- A rounded quotient is not farther than a half. -/
theorem roundDiv_near (num : Nat) {den : Nat} (positive : 0 < den) :
    2 * (roundDiv num den * den) ≤ 2 * num + den ∧
      2 * num ≤ 2 * (roundDiv num den * den) + den := by
  have parts : num / den * den + num % den = num := Nat.div_add_mod' num den
  have small : num % den < den := Nat.mod_lt num positive
  have next : (num / den + 1) * den = num / den * den + den := by ring
  have cases_eq : roundDiv num den = num / den ∧ 2 * (num % den) ≤ den ∨
      roundDiv num den = num / den + 1 ∧ den ≤ 2 * (num % den) := by
    simp only [roundDiv]
    split_ifs <;> omega
  rcases cases_eq with ⟨same, _⟩ | ⟨same, _⟩
  · rw [same]
    omega
  · rw [same, next]
    omega

/-- On a grid that is finer than half a unit, the point next to the value is found if the ends are
a unit away. -/
theorem gridPoint?_of_fine (closed : Bool) {low value high num den : Nat}
    (below : low < value) (above : value < high) (positive : 0 < den) (fine : den < 2 * num) :
    gridPoint? closed low value high num den = some (roundDiv (value * num) den) := by
  obtain ⟨near, near'⟩ := roundDiv_near (value * num) positive
  have lower : low * num + num ≤ value * num := by
    rw [← Nat.succ_mul]
    exact Nat.mul_le_mul_right num below
  have upper : value * num + num ≤ high * num := by
    rw [← Nat.succ_mul]
    exact Nat.mul_le_mul_right num above
  have inside : low * num < roundDiv (value * num) den * den ∧
      roundDiv (value * num) den * den < high * num := by omega
  unfold gridPoint?
  cases closed with
  | true => simp [inside.1.le, inside.2.le]
  | false => simp [inside]

/-! ## The search -/

/-- A point of a decimal grid that is found rounds to the double. -/
theorem roundsTo_of_gridPoint? {m point : Nat} {e scale : Int}
    (found : gridPoint? (m % 2 = 0) (lowEnd m e) (4 * m) (4 * m + 2) (placeNum (e - 2) scale)
      (placeDen (e - 2) scale) = some point) : RoundsTo (point * 10 ^ scale) m e := by
  obtain ⟨low, high, closed⟩ := gridPoint?_spec found
  have above : (0 : ℚ) < placeDen (e - 2) scale := Nat.cast_pos.mpr (placeDen_pos _ _)
  have place : (0 : ℚ) < 10 ^ scale := zpow_pos (by norm_num) _
  have scaled (bound : Nat) : (bound : ℚ) * 2 ^ (e - 2) =
      bound * placeNum (e - 2) scale / placeDen (e - 2) scale * 10 ^ scale := by
    rw [mul_div_assoc, place_eq, mul_assoc, div_mul_cancel₀ _ place.ne']
  refine ⟨?_, ?_, (closed.imp of_decide_eq_true fun ⟨lower, upper⟩ => ⟨?_, ?_⟩)⟩
  · rw [scaled]
    refine mul_le_mul_of_nonneg_right ?_ place.le
    rw [div_le_iff₀ above]
    exact_mod_cast low
  · rw [scaled]
    refine mul_le_mul_of_nonneg_right ?_ place.le
    rw [le_div_iff₀ above]
    exact_mod_cast high
  · rw [scaled]
    refine mul_lt_mul_of_pos_right ?_ place
    rw [div_lt_iff₀ above]
    exact_mod_cast lower
  · rw [scaled]
    refine mul_lt_mul_of_pos_right ?_ place
    rw [lt_div_iff₀ above]
    exact_mod_cast upper

theorem searchGrid_succ (closed : Bool) (low value high : Nat) (unit : Int) (fuel : Nat)
    (scale : Int) : searchGrid closed low value high unit (fuel + 1) scale =
      match gridPoint? closed low value high (placeNum unit scale) (placeDen unit scale) with
      | some point => (point, scale)
      | none => searchGrid closed low value high unit fuel (scale - 1) :=
  rfl

/-- If the last grid of the search is finer than half a place of the double, a point is found
that rounds to the double. -/
theorem roundsTo_of_searchGrid {m : Nat} {e : Int} (nonzero : m ≠ 0) (fuel : Nat)
    {scale last : Int} {point : Nat} (fine : (10 : ℚ) ^ (scale - fuel) < 2 ^ (e - 1))
    (found : searchGrid (m % 2 = 0) (lowEnd m e) (4 * m) (4 * m + 2) (e - 2) (fuel + 1) scale =
      (point, last)) : RoundsTo (point * 10 ^ last) m e := by
  induction fuel generalizing scale with
  | zero =>
    have low : lowEnd m e < 4 * m := by
      unfold lowEnd
      split_ifs <;> omega
    have fineHere : placeDen (e - 2) scale < 2 * placeNum (e - 2) scale := by
      refine placeDen_lt ?_
      rw [show e - 2 + 1 = e - 1 by ring]
      simpa using fine
    have here := gridPoint?_of_fine (decide (m % 2 = 0)) low
      (show 4 * m < 4 * m + 2 by omega) (placeDen_pos _ _) fineHere
    rw [searchGrid_succ, here] at found
    cases found
    exact roundsTo_of_gridPoint? here
  | succ fuel ih =>
    rw [searchGrid_succ] at found
    split at found
    · rename_i here
      cases found
      exact roundsTo_of_gridPoint? here
    · refine ih ?_ found
      rw [show scale - 1 - (fuel : Int) = scale - (fuel + 1 : Nat) by push_cast; ring]
      exact fine

/-! ## The first grid -/

/-- Powers of two and of ten are compared by their logarithms, up to the accuracy of one pair of
powers that is known. -/
theorem pow_le_pow_of_known {base other n k a b : Nat} (known : base ^ n ≤ other ^ k)
    (positive : 0 < n) (large : 0 < other) (le : k * a ≤ n * b) : base ^ a ≤ other ^ b := by
  refine le_of_pow_le_pow_left₀ positive.ne' (Nat.zero_le _) ?_
  calc (base ^ a) ^ n = (base ^ n) ^ a := by rw [← pow_mul, ← pow_mul, Nat.mul_comm]
    _ ≤ (other ^ k) ^ a := Nat.pow_le_pow_left known a
    _ = other ^ (k * a) := (pow_mul _ _ _).symm
    _ ≤ other ^ (n * b) := Nat.pow_le_pow_right large le
    _ = (other ^ b) ^ n := by rw [← pow_mul, Nat.mul_comm]

theorem two_pow_le_ten_pow : 2 ^ 100000 ≤ 10 ^ 30103 := by
  decide +kernel

theorem ten_pow_le_two_pow : 10 ^ 30103 ≤ 2 ^ 100001 := by
  decide +kernel

/-- The number of decimal places that is guessed is at most one binary place too large. -/
theorem places_le {bits : Int} (small : bits ≤ 100000) :
    (10 : ℚ) ^ (bits * 30103 / 100000) ≤ 2 ^ (bits + 1) := by
  rcases le_or_gt 0 bits with nonnegative | negative
  · obtain ⟨k, rfl⟩ := Int.eq_ofNat_of_zero_le nonnegative
    have le : 10 ^ (k * 30103 / 100000) ≤ 2 ^ (k + 1) :=
      pow_le_pow_of_known ten_pow_le_two_pow (by decide) (by decide) (by omega)
    have places : (k : Int) * 30103 / 100000 = (k * 30103 / 100000 : Nat) := by push_cast; rfl
    rw [places, zpow_natCast]
    exact_mod_cast le
  · obtain ⟨k, same⟩ := Int.eq_ofNat_of_zero_le (show 0 ≤ -bits by omega)
    obtain ⟨places, rest⟩ := Int.eq_ofNat_of_zero_le
      (show 0 ≤ -(bits * 30103 / 100000) by omega)
    have le : 2 ^ k ≤ 10 ^ places :=
      pow_le_pow_of_known two_pow_le_ten_pow (by decide) (by decide) (by omega)
    have inverse : (10 : ℚ) ^ (-(places : Int)) ≤ 2 ^ (-(k : Int)) := by
      rw [zpow_neg, zpow_neg, zpow_natCast, zpow_natCast]
      exact inv_anti₀ (pow_pos two_pos k) (by exact_mod_cast le)
    rw [show bits * 30103 / 100000 = -(places : Int) by omega]
    exact inverse.trans (zpow_le_zpow_right₀ one_le_two (by omega))

/-- The shortest digits of a double round to it. -/
theorem shortest_roundsTo {m : Nat} {e : Int} (normal : Normal m e) (nonzero : m ≠ 0)
    {point : Nat} {scale : Int} (found : shortest m e = (point, scale)) :
    RoundsTo (point * 10 ^ scale) m e := by
  refine roundsTo_of_searchGrid nonzero 19 ?_ found
  have short : m.log2 ≤ 52 := by
    have := (Nat.log2_lt nonzero).mpr normal.fits
    omega
  have small : e + m.log2 ≤ 100000 := by
    have := normal.high
    simp only [maxExponent] at this
    omega
  have guess := places_le small
  calc (10 : ℚ) ^ ((e + m.log2) * 30103 / 100000 + 1 - (19 : Nat))
      = 10 ^ ((e + m.log2) * 30103 / 100000) * 10 ^ (-18 : Int) := by
        rw [← zpow_add₀ (by norm_num)]
        congr 1
        push_cast
        ring
    _ ≤ 2 ^ (e + m.log2 + 1) * 10 ^ (-18 : Int) :=
        mul_le_mul_of_nonneg_right guess (zpow_pos (by norm_num) _).le
    _ ≤ 2 ^ (e + 53) * 10 ^ (-18 : Int) := by
        refine mul_le_mul_of_nonneg_right ?_ (zpow_pos (by norm_num) _).le
        exact zpow_le_zpow_right₀ one_le_two (by omega)
    _ = 2 ^ (e - 1) * (2 ^ 54 / 10 ^ 18) := by
        rw [show e + 53 = e - 1 + (54 : Nat) by push_cast; ring, zpow_add₀ two_ne_zero,
          zpow_natCast, mul_assoc]
        congr 1
    _ < 2 ^ (e - 1) * 1 := by
        refine mul_lt_mul_of_pos_left ?_ (zpow_pos two_pos _)
        norm_num
    _ = 2 ^ (e - 1) := mul_one _

/-- Shortest digits are no zeros. -/
theorem shortest_ne_zero {m : Nat} {e : Int} (normal : Normal m e) (nonzero : m ≠ 0)
    {point : Nat} {scale : Int} (found : shortest m e = (point, scale)) : point ≠ 0 := by
  rintro rfl
  have low := (shortest_roundsTo normal nonzero found).low
  have lowest := le_lowEnd m e
  have positive : (0 : ℚ) < lowEnd m e * 2 ^ (e - 2) :=
    mul_pos (Nat.cast_pos.mpr (by omega)) (zpow_pos two_pos _)
  rw [Nat.cast_zero, zero_mul] at low
  exact absurd low (not_le.mpr positive)

end Paymaster.Double

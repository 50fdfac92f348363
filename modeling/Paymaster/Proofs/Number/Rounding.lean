import Mathlib.Algebra.Order.Field.Rat
import Mathlib.Data.Nat.Log
import Mathlib.Tactic.Linarith
import Mathlib.Tactic.NormNum
import Mathlib.Tactic.Ring
import Paymaster.Proofs.Number.Range

/-!
# What rounds to a double

A double in normal form (`Double.Normal`) is what every number between the middles to its
neighbours rounds to, and the middles themselves if its significand is even
(`Double.RoundsTo`). Below a power of two the neighbour is nearer by half.

`Double.ofRatio` first finds the power of two below a quotient (`Double.ofRatio_eq`), and then
rounds to an integer; so it rounds every quotient to the double that it rounds to
(`Double.ofRatio_of_roundsTo`), and what it gives has normal form (`Double.isNormal_ofRatio`).
-/

namespace Paymaster.Double

/-! ## Normal forms -/

/-- The significand and the exponent of a double: as many bits as fit, unless the exponent is
the lowest one. -/
structure Normal (m : Nat) (e : Int) : Prop where
  fits : m < 2 ^ 53
  full : 2 ^ 52 ≤ m ∨ e = minExponent
  low : minExponent ≤ e
  high : e ≤ maxExponent

instance (m : Nat) (e : Int) : Decidable (Normal m e) :=
  decidable_of_iff (m < 2 ^ 53 ∧ (2 ^ 52 ≤ m ∨ e = minExponent) ∧ minExponent ≤ e ∧ e ≤ maxExponent)
    ⟨fun ⟨fits, full, low, high⟩ => ⟨fits, full, low, high⟩,
      fun ⟨fits, full, low, high⟩ => ⟨fits, full, low, high⟩⟩

/-- Every double but a finite one that is not in normal form. -/
def IsNormal : Double → Prop
  | .finite _ m e => Normal m e
  | _ => True

instance : DecidablePred IsNormal
  | .finite _ m e => inferInstanceAs (Decidable (Normal m e))
  | .infinite _ | .nan => inferInstanceAs (Decidable True)

/-! ## Rounding to an integer -/

/-- A quotient is rounded to an integer that is not farther than a half, and if a half, even. -/
theorem roundDiv_eq {num den k : Nat} (low : 2 * (k * den) ≤ 2 * num + den)
    (high : 2 * num ≤ 2 * (k * den) + den)
    (tie : k % 2 = 0 ∨ 2 * (k * den) < 2 * num + den ∧ 2 * num < 2 * (k * den) + den)
    (positive : 0 < den) : roundDiv num den = k := by
  have parts : den * (num / den) + num % den = num := Nat.div_add_mod num den
  have small : num % den < den := Nat.mod_lt num positive
  have quotient : num / den = k ∨ num / den + 1 = k := by
    have atMost : num / den ≤ k := by
      by_contra more
      have : den * (k + 1) ≤ den * (num / den) := Nat.mul_le_mul_left den (by omega)
      rw [Nat.mul_succ, Nat.mul_comm den k] at this
      omega
    have atLeast : k ≤ num / den + 1 := by
      by_contra less
      have : den * (num / den + 2) ≤ den * k := Nat.mul_le_mul_left den (by omega)
      rw [Nat.mul_comm den k, Nat.mul_add] at this
      omega
    omega
  simp only [roundDiv]
  rcases quotient with rfl | rfl
  · rw [Nat.mul_comm] at parts
    split_ifs <;> omega
  · rw [Nat.mul_comm] at parts
    rw [Nat.add_mul, Nat.one_mul] at low high tie
    split_ifs <;> omega

/-- The same with the quotient as a number. -/
theorem roundDiv_of_near {num den k : Nat} (positive : 0 < den)
    (low : (k : ℚ) - 1 / 2 ≤ num / den) (high : (num : ℚ) / den ≤ k + 1 / 2)
    (tie : k % 2 = 0 ∨ (k : ℚ) - 1 / 2 < num / den ∧ (num : ℚ) / den < k + 1 / 2) :
    roundDiv num den = k := by
  have above : (0 : ℚ) < den := Nat.cast_pos.mpr positive
  rw [le_div_iff₀ above] at low
  rw [div_le_iff₀ above] at high
  refine roundDiv_eq ?_ ?_ (tie.imp_right fun ⟨lower, upper⟩ => ⟨?_, ?_⟩) positive
  · have : 2 * ((k : ℚ) * den) ≤ 2 * num + den := by linarith
    exact_mod_cast this
  · have : 2 * (num : ℚ) ≤ 2 * (k * den) + den := by linarith
    exact_mod_cast this
  · rw [lt_div_iff₀ above] at lower
    have : 2 * ((k : ℚ) * den) < 2 * num + den := by linarith
    exact_mod_cast this
  · rw [div_lt_iff₀ above] at upper
    have : 2 * (num : ℚ) < 2 * (k * den) + den := by linarith
    exact_mod_cast this

/-- Rounding does not go beyond a natural number. -/
theorem roundDiv_le_of_le {num den k : Nat} (positive : 0 < den) (le : num ≤ k * den) :
    roundDiv num den ≤ k := by
  rcases Nat.lt_or_ge (num / den) k with below | reached
  · exact (roundDiv_le num den).trans below
  · have multiple : k * den ≤ num := (Nat.le_div_iff_mul_le positive).mp reached
    obtain rfl : num = k * den := Nat.le_antisymm le multiple
    simp [roundDiv, Nat.mul_div_cancel k positive, positive]

theorem le_roundDiv {num den k : Nat} (positive : 0 < den) (le : k * den ≤ num) :
    k ≤ roundDiv num den := by
  have whole : k ≤ num / den := (Nat.le_div_iff_mul_le positive).mpr le
  simp only [roundDiv]
  split_ifs <;> omega

/-! ## The power of two below a quotient -/

theorem scaled_pos (num : Nat) {den : Nat} (positive : 0 < den) (e : Int) :
    0 < (scaled num den e).2 := by
  unfold scaled
  split_ifs
  · exact Nat.mul_pos positive (Nat.two_pow_pos _)
  · exact positive

theorem scaled_div (num den : Nat) (e : Int) :
    ((scaled num den e).1 : ℚ) / (scaled num den e).2 = (num : ℚ) / den / 2 ^ e := by
  unfold scaled
  split_ifs with up
  · obtain ⟨k, rfl⟩ := Int.eq_ofNat_of_zero_le up
    simp only [Int.toNat_natCast, Nat.pow_eq, Nat.cast_mul, Nat.cast_pow, Nat.cast_ofNat,
      zpow_natCast, div_div]
  · obtain ⟨k, same⟩ := Int.eq_ofNat_of_zero_le (show 0 ≤ -e by omega)
    obtain rfl : e = -(k : Int) := by omega
    simp only [neg_neg, Int.toNat_natCast, Nat.pow_eq, Nat.cast_mul, Nat.cast_pow,
      Nat.cast_ofNat, zpow_neg, zpow_natCast, div_inv_eq_mul, mul_div_right_comm]

/-- A quotient rounded to a multiple of a power of two, as a double. -/
def atExponent (negative : Bool) (num den : Nat) (e : Int) : Double :=
  let m := roundDiv (scaled num den e).1 (scaled num den e).2
  if m = 2 ^ 53 then
    if maxExponent < e + 1 then .infinite negative else .finite negative (2 ^ 52) (e + 1)
  else if maxExponent < e then .infinite negative else .finite negative m e

/-- The lengths of a numerator and a denominator tell their quotient up to a factor of two. -/
theorem quotient_bounds {num den : Nat} (nonzero : num ≠ 0) (positive : 0 < den) :
    (2 : ℚ) ^ ((num.log2 : Int) - den.log2 - 1) ≤ (num : ℚ) / den ∧
      (num : ℚ) / den < 2 ^ ((num.log2 : Int) - den.log2 + 1) := by
  have above : (0 : ℚ) < den := Nat.cast_pos.mpr positive
  have numLow : (2 : ℚ) ^ (num.log2 : Int) ≤ num := by
    rw [zpow_natCast]
    exact_mod_cast Nat.log2_self_le nonzero
  have numHigh : (num : ℚ) < 2 ^ ((num.log2 : Int) + 1) := by
    have : num < 2 ^ (num.log2 + 1) := Nat.lt_log2_self
    exact_mod_cast this
  have denLow : (2 : ℚ) ^ (den.log2 : Int) ≤ den := by
    rw [zpow_natCast]
    exact_mod_cast Nat.log2_self_le positive.ne'
  have denHigh : (den : ℚ) < 2 ^ ((den.log2 : Int) + 1) := by
    have : den < 2 ^ (den.log2 + 1) := Nat.lt_log2_self
    exact_mod_cast this
  constructor
  · rw [le_div_iff₀ above]
    calc (2 : ℚ) ^ ((num.log2 : Int) - den.log2 - 1) * den
        ≤ 2 ^ ((num.log2 : Int) - den.log2 - 1) * 2 ^ ((den.log2 : Int) + 1) :=
          mul_le_mul_of_nonneg_left denHigh.le (zpow_pos two_pos _).le
      _ = 2 ^ (num.log2 : Int) := by rw [← zpow_add₀ two_ne_zero]; congr 1; ring
      _ ≤ num := numLow
  · rw [div_lt_iff₀ above]
    calc (num : ℚ) < 2 ^ ((num.log2 : Int) + 1) := numHigh
      _ = 2 ^ ((num.log2 : Int) - den.log2 + 1) * 2 ^ (den.log2 : Int) := by
        rw [← zpow_add₀ two_ne_zero]; congr 1; ring
      _ ≤ 2 ^ ((num.log2 : Int) - den.log2 + 1) * den :=
        mul_le_mul_of_nonneg_left denLow (zpow_pos two_pos _).le

/-- A quotient lies between two powers of two that follow each other, and is rounded at the
exponent that leaves 53 bits. -/
theorem ofRatio_eq (negative : Bool) {num den : Nat} (nonzero : num ≠ 0) (positive : 0 < den) :
    ∃ e : Int, (2 : ℚ) ^ (52 + e) ≤ (num : ℚ) / den ∧ (num : ℚ) / den < 2 ^ (53 + e) ∧
      ofRatio negative num den = atExponent negative num den (max minExponent e) := by
  let guess : Int := num.log2 - den.log2 - 52
  obtain ⟨low, high⟩ := quotient_bounds nonzero positive
  have short : (scaled num den guess).1 / (scaled num den guess).2 < 2 ^ 52 ↔
      (num : ℚ) / den < 2 ^ (52 + guess) := by
    have above : (0 : ℚ) < (scaled num den guess).2 := Nat.cast_pos.mpr (scaled_pos _ positive _)
    rw [Nat.div_lt_iff_lt_mul (scaled_pos _ positive _), zpow_add₀ two_ne_zero,
      ← div_lt_iff₀ (zpow_pos two_pos guess), ← scaled_div, div_lt_iff₀ above]
    exact_mod_cast Iff.rfl
  refine ⟨if (scaled num den guess).1 / (scaled num den guess).2 < 2 ^ 52 then guess - 1
    else guess, ?_, ?_, ?_⟩
  · split_ifs with less
    · exact (zpow_le_zpow_right₀ one_le_two (by omega)).trans low
    · exact not_lt.mp (mt short.mpr less)
  · split_ifs with less
    · exact (short.mp less).trans_le (zpow_le_zpow_right₀ one_le_two (by omega))
    · exact high.trans_le (zpow_le_zpow_right₀ one_le_two (by omega))
  · unfold ofRatio atExponent
    rw [if_neg nonzero]
    dsimp only [Nat.pow_eq]
    split_ifs <;> rfl

theorem isNormal_atExponent (negative : Bool) {num den : Nat} {e : Int} (low : minExponent ≤ e)
    (fits : roundDiv (scaled num den e).1 (scaled num den e).2 ≤ 2 ^ 53)
    (full : 2 ^ 52 ≤ roundDiv (scaled num den e).1 (scaled num den e).2 ∨ e = minExponent) :
    IsNormal (atExponent negative num den e) := by
  unfold atExponent
  dsimp only
  split_ifs with carried beyond beyond
  · trivial
  · exact ⟨by decide, .inl le_rfl, by omega, by omega⟩
  · trivial
  · exact ⟨by omega, full, low, by omega⟩

/-- What a quotient is rounded to has normal form. -/
theorem isNormal_ofRatio (negative : Bool) {num den : Nat} (positive : 0 < den) :
    IsNormal (ofRatio negative num den) := by
  by_cases zero : num = 0
  · rw [ofRatio, if_pos zero]
    exact ⟨by decide, .inr rfl, le_rfl, by decide⟩
  obtain ⟨e, low, high, made⟩ := ofRatio_eq negative zero positive
  have denPositive := scaled_pos num positive (max minExponent e)
  have above : (0 : ℚ) < (scaled num den (max minExponent e)).2 := Nat.cast_pos.mpr denPositive
  have quotient := scaled_div num den (max minExponent e)
  rw [made]
  refine isNormal_atExponent negative (le_max_left _ _) (roundDiv_le_of_le denPositive ?_) ?_
  · have less : (num : ℚ) / den / 2 ^ (max minExponent e) ≤ 2 ^ 53 := by
      rw [div_le_iff₀ (zpow_pos two_pos _), ← zpow_natCast, ← zpow_add₀ two_ne_zero]
      exact high.le.trans (zpow_le_zpow_right₀ one_le_two (by push_cast; omega))
    rw [← quotient, div_le_iff₀ above] at less
    exact_mod_cast less
  · rcases le_or_gt e minExponent with subnormal | normal
    · exact .inr (max_eq_left subnormal)
    · refine .inl (le_roundDiv denPositive ?_)
      have more : (2 : ℚ) ^ 52 ≤ (num : ℚ) / den / 2 ^ (max minExponent e) := by
        rw [max_eq_right normal.le, le_div_iff₀ (zpow_pos two_pos _), ← zpow_natCast,
          ← zpow_add₀ two_ne_zero]
        exact low
      rw [← quotient, le_div_iff₀ above] at more
      exact_mod_cast more

/-! ## The numbers that round to a double -/

/-- The lower end of the numbers that round to a double, in quarters of its last place. -/
def lowEnd (m : Nat) (e : Int) : Nat :=
  if m = 2 ^ 52 ∧ minExponent < e then 4 * m - 1 else 4 * m - 2

/-- A number lies between the middles to the neighbours of a double, or is one of them if the
significand is even. -/
structure RoundsTo (q : ℚ) (m : Nat) (e : Int) : Prop where
  low : (lowEnd m e : ℚ) * 2 ^ (e - 2) ≤ q
  high : q ≤ ((4 * m + 2 : Nat) : ℚ) * 2 ^ (e - 2)
  closed : m % 2 = 0 ∨
    (lowEnd m e : ℚ) * 2 ^ (e - 2) < q ∧ q < ((4 * m + 2 : Nat) : ℚ) * 2 ^ (e - 2)

theorem le_lowEnd (m : Nat) (e : Int) : 4 * m - 2 ≤ lowEnd m e := by
  unfold lowEnd
  split_ifs <;> omega

/-- A number that rounds to a double, in quarters of its last place. -/
theorem RoundsTo.quarters {q : ℚ} {m : Nat} {e : Int} (rounds : RoundsTo q m e) :
    (lowEnd m e : ℚ) ≤ q / 2 ^ (e - 2) ∧ q / 2 ^ (e - 2) ≤ (4 * m + 2 : Nat) ∧
      (m % 2 = 0 ∨ (lowEnd m e : ℚ) < q / 2 ^ (e - 2) ∧ q / 2 ^ (e - 2) < (4 * m + 2 : Nat)) := by
  have positive : (0 : ℚ) < 2 ^ (e - 2) := zpow_pos two_pos _
  refine ⟨(le_div_iff₀ positive).mpr rounds.low, (div_le_iff₀ positive).mpr rounds.high,
    rounds.closed.imp_right fun ⟨low, high⟩ => ?_⟩
  exact ⟨(lt_div_iff₀ positive).mpr low, (div_lt_iff₀ positive).mpr high⟩

theorem div_pow_eq (q : ℚ) (e : Int) (k : Nat) :
    q / 2 ^ (e - 2 + k) = q / 2 ^ (e - 2) / 2 ^ k := by
  rw [zpow_add₀ two_ne_zero, zpow_natCast, div_div]

/-- At its own exponent a double is what rounds to it. -/
theorem atExponent_of_roundsTo (negative : Bool) {num den m : Nat} {e : Int} (normal : Normal m e)
    (positive : 0 < den) (rounds : RoundsTo ((num : ℚ) / den) m e) :
    atExponent negative num den e = .finite negative m e := by
  obtain ⟨low, high, closed⟩ := rounds.quarters
  have lowest : (4 * m : ℚ) - 2 ≤ lowEnd m e := by
    have : 4 * m ≤ lowEnd m e + 2 := by
      have := le_lowEnd m e
      omega
    have : (4 * m : ℚ) ≤ lowEnd m e + 2 := by exact_mod_cast this
    linarith
  have quotient : ((scaled num den e).1 : ℚ) / (scaled num den e).2 =
      (num : ℚ) / den / 2 ^ (e - 2) / 2 ^ 2 := by
    rw [scaled_div, ← div_pow_eq]
    congr 2
    push_cast
    ring
  push_cast at high closed
  have rounded : roundDiv (scaled num den e).1 (scaled num den e).2 = m := by
    refine roundDiv_of_near (scaled_pos _ positive e) ?_ ?_ (closed.imp_right fun ⟨lower, upper⟩ =>
      ⟨?_, ?_⟩)
    all_goals
      rw [quotient]
      linarith
  have small : m ≠ 2 ^ 53 := normal.fits.ne
  have finite : ¬ maxExponent < e := not_lt.mpr normal.high
  simp only [atExponent, rounded, if_neg small, if_neg finite]

/-- Below a power of two the exponent is one lower, and rounding carries. -/
theorem atExponent_of_carry (negative : Bool) {num den : Nat} {e : Int} (inRange : e ≤ maxExponent)
    (positive : 0 < den) (low : ((2 ^ 54 - 1 : Nat) : ℚ) ≤ (num : ℚ) / den / 2 ^ (e - 2))
    (high : (num : ℚ) / den / 2 ^ (e - 2) ≤ 2 ^ 54) :
    atExponent negative num den (e - 1) = .finite negative (2 ^ 52) e := by
  have quotient : ((scaled num den (e - 1)).1 : ℚ) / (scaled num den (e - 1)).2 =
      (num : ℚ) / den / 2 ^ (e - 2) / 2 ^ 1 := by
    rw [scaled_div, ← div_pow_eq]
    congr 2
    push_cast
    ring
  have rounded : roundDiv (scaled num den (e - 1)).1 (scaled num den (e - 1)).2 = 2 ^ 53 := by
    refine roundDiv_of_near (scaled_pos _ positive _) ?_ ?_ (.inl (by decide))
    all_goals
      rw [quotient]
      push_cast at low ⊢
      linarith
  have finite : ¬ maxExponent < e - 1 + 1 := by omega
  simp only [atExponent, rounded, if_true, if_neg finite]
  congr 1
  omega

/-- A number below a power of two, in quarters of a place. -/
theorem quarters_lt {q : ℚ} {e E : Int} (above : q < 2 ^ (53 + E)) {k : Nat}
    (le : 53 + E ≤ k + (e - 2)) : q / 2 ^ (e - 2) < 2 ^ k := by
  rw [div_lt_iff₀ (zpow_pos two_pos _), ← zpow_natCast, ← zpow_add₀ two_ne_zero]
  exact above.trans_le (zpow_le_zpow_right₀ one_le_two le)

/-- The power of two below a number that rounds to a double is the one of the double, or the one
before it if the double is a power of two itself. -/
theorem RoundsTo.exponent {q : ℚ} {m : Nat} {e E : Int} (rounds : RoundsTo q m e)
    (normal : Normal m e) (below : 2 ^ (52 + E) ≤ q) (above : q < 2 ^ (53 + E)) :
    max minExponent E = e ∨ m = 2 ^ 52 ∧ minExponent < e ∧ E = e - 1 := by
  obtain ⟨low, high, -⟩ := rounds.quarters
  have fits := normal.fits
  have notAbove : E ≤ e := by
    by_contra more
    have reached : (2 : ℚ) ^ 55 ≤ q / 2 ^ (e - 2) := by
      rw [le_div_iff₀ (zpow_pos two_pos _), ← zpow_natCast, ← zpow_add₀ two_ne_zero]
      exact (zpow_le_zpow_right₀ one_le_two (by push_cast; omega)).trans below
    have : (2 : ℚ) ^ 55 ≤ (4 * m + 2 : Nat) := reached.trans high
    have : 2 ^ 55 ≤ 4 * m + 2 := by exact_mod_cast this
    omega
  by_cases own : max minExponent E = e
  · exact .inl own
  have lower : E < e ∧ minExponent < e := by
    have := normal.low
    omega
  have end_lt {k : Nat} (le : 53 + E ≤ k + (e - 2)) : lowEnd m e < 2 ^ k := by
    have := low.trans_lt (quarters_lt above le)
    exact_mod_cast this
  have power : m = 2 ^ 52 := by
    have full := normal.full.resolve_right lower.2.ne'
    have end_lt : lowEnd m e < 2 ^ 54 := end_lt (by push_cast; omega)
    have lowest := le_lowEnd m e
    omega
  refine .inr ⟨power, lower.2, ?_⟩
  by_contra other
  have end_lt : lowEnd m e < 2 ^ 53 := end_lt (by push_cast; omega)
  have lowest := le_lowEnd m e
  omega

/-- A quotient that rounds to a double is rounded to it. -/
theorem ofRatio_of_roundsTo (negative : Bool) {num den m : Nat} {e : Int} (normal : Normal m e)
    (nonzero : m ≠ 0) (positive : 0 < den) (rounds : RoundsTo ((num : ℚ) / den) m e) :
    ofRatio negative num den = .finite negative m e := by
  obtain ⟨low, -, -⟩ := rounds.quarters
  have numNonzero : num ≠ 0 := by
    rintro rfl
    have : (lowEnd m e : ℚ) ≤ 0 := by simpa using low
    have : lowEnd m e ≤ 0 := by exact_mod_cast this
    have lowest := le_lowEnd m e
    omega
  obtain ⟨E, below, above, made⟩ := ofRatio_eq negative numNonzero positive
  rw [made]
  rcases rounds.exponent normal below above with own | ⟨power, higher, before⟩
  · rw [own]
    exact atExponent_of_roundsTo negative normal positive rounds
  · have exponent : max minExponent E = e - 1 := by omega
    have narrow : lowEnd m e = 2 ^ 54 - 1 := by
      rw [lowEnd, if_pos ⟨power, higher⟩, power]
      rfl
    rw [exponent, power]
    rw [narrow] at low
    exact atExponent_of_carry negative normal.high positive low
      (quarters_lt above (by push_cast; omega)).le

end Paymaster.Double

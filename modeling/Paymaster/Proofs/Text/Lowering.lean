import Paymaster.Proofs.Text.Keys

/-!
# Lower case is final

A text in lower case is its own lower-case form (`Text.lower_lower`). The code points that
differ from their lower-case form are the members of some runs; the forms of a run lie before
another run, behind it, or between its members (`CodePoint.misses_capitals`), so no form is such
a code point again.
-/

namespace Paymaster

namespace CodePoint

/-! ## Runs -/

/-- Whether a number is a member of a run. -/
def inRun (run : Nat × Nat × Nat × Int) (n : Nat) : Bool :=
  run.1 ≤ n && n ≤ run.2.1 && (n - run.1) % run.2.2.1 == 0

/-- The runs of code points that are not their own lower-case forms. -/
def capitals : List (Nat × Nat × Nat × Int) :=
  (65, 90, 1, 32) :: (0x130, 0x130, 1, 0) :: lowerRuns

/-- A code point that is in none of the runs. -/
def Plain (c : CodePoint) : Prop :=
  ∀ run ∈ capitals, inRun run c.val = false

instance (c : CodePoint) : Decidable (Plain c) :=
  decidable_of_iff ((capitals.all fun run => !inRun run c.val) = true) (by simp [Plain])

/-- Members that are all even or all odd. -/
def alternates (first last step : Nat) : Bool :=
  step == 2 || first == last

/-- The forms of a run are no members of another one: they come before it, behind it, or where
it has no members. -/
def misses (run run' : Nat × Nat × Nat × Int) : Bool :=
  let first := (run.1 + run.2.2.2).toNat
  let last := (run.2.1 + run.2.2.2).toNat
  last < run'.1 || run'.2.1 < first ||
    (alternates first last run.2.2.1 && alternates run'.1 run'.2.1 run'.2.2.1 &&
      (first + run'.1) % 2 == 1)

theorem misses_capitals :
    (((65, 90, 1, 32) :: lowerRuns).all fun run => capitals.all (misses run)) = true := by
  decide +kernel

/-- The forms of the runs are code points. -/
theorem lowerRuns_within : ∀ run ∈ (65, 90, 1, 32) :: lowerRuns,
    0 ≤ run.1 + run.2.2.2 ∧ run.2.1 + run.2.2.2 < 0x110000 := by
  decide +kernel

/-- Only one run of capitals lies within ASCII. -/
theorem beyond_ascii : ∀ run ∈ (0x130, 0x130, 1, 0) :: lowerRuns, 128 ≤ run.1 := by
  decide +kernel

theorem inRun_iff (run : Nat × Nat × Nat × Int) (n : Nat) :
    inRun run n = true ↔ run.1 ≤ n ∧ n ≤ run.2.1 ∧ (n - run.1) % run.2.2.1 = 0 := by
  simp [inRun, and_assoc]

/-- A member of a run with members of one parity has that parity. -/
theorem parity_of_alternates {first last step n : Nat} (even : alternates first last step = true)
    (low : first ≤ n) (high : n ≤ last) (member : (n - first) % step = 0) :
    n % 2 = first % 2 := by
  simp only [alternates, Bool.or_eq_true, beq_iff_eq] at even
  rcases even with rfl | rfl
  · omega
  · have same : n = first := Nat.le_antisymm high low
    rw [same]

/-- The form of a member of a run is no member of a run that the run misses. -/
theorem not_inRun_of_misses {run run' : Nat × Nat × Nat × Int} (apart : misses run run' = true)
    (positive : 0 ≤ run.1 + run.2.2.2) {n : Nat} (member : inRun run n = true) :
    inRun run' (n + run.2.2.2).toNat = false := by
  obtain ⟨first, last, step, distance⟩ := run
  obtain ⟨first', last', step', distance'⟩ := run'
  obtain ⟨low, high, steps⟩ := (inRun_iff _ _).mp member
  by_contra inside
  obtain ⟨low', high', steps'⟩ := (inRun_iff _ _).mp (Bool.of_not_eq_false inside)
  simp only [misses, Bool.or_eq_true, Bool.and_eq_true, decide_eq_true_eq, beq_iff_eq] at *
  rcases apart with (before | behind) | ⟨⟨even, even'⟩, parity⟩
  · omega
  · omega
  · have moved : (n + distance).toNat - (first + distance).toNat = n - first := by omega
    have own := parity_of_alternates even (n := (n + distance).toNat) (by omega) (by omega)
      (moved ▸ steps)
    have other := parity_of_alternates even' low' high' steps'
    omega

/-- The form of a member of a run is plain. -/
theorem plain_of_inRun {run : Nat × Nat × Nat × Int} (known : run ∈ (65, 90, 1, 32) :: lowerRuns)
    {n : Nat} (member : inRun run n = true) : Plain (ofNat (n + run.2.2.2).toNat) := by
  obtain ⟨positive, small⟩ := lowerRuns_within run known
  obtain ⟨-, high, -⟩ := (inRun_iff _ _).mp member
  intro run' capital
  have apart := List.all_eq_true.mp (List.all_eq_true.mp misses_capitals run known) run' capital
  rw [val_ofNat (by omega)]
  exact not_inRun_of_misses apart positive member

/-! ## One code point -/

/-- Beyond ASCII a code point moves by the distance of its run. -/
theorem lower_of_inRun {c : CodePoint} (beyond : c.isAscii = false) (other : c ≠ 0x130)
    {run : Nat × Nat × Nat × Int} (found : lowerRuns.find? (inRun · c.val) = some run) :
    c.lower = [ofNat (c.val + run.2.2.2).toNat] := by
  unfold inRun at found
  simp only [lower, beyond, if_neg other, Bool.false_eq_true, if_false, found]

theorem lower_of_not_inRun {c : CodePoint} (beyond : c.isAscii = false) (other : c ≠ 0x130)
    (absent : lowerRuns.find? (inRun · c.val) = none) : c.lower = [c] := by
  unfold inRun at absent
  simp only [lower, beyond, if_neg other, Bool.false_eq_true, if_false, absent]

/-- A code point that is in no run is its own lower-case form, and no capital sigma. -/
theorem lower_of_plain {c : CodePoint} (plain : c.Plain) : c.lower = [c] ∧ c ≠ 0x3A3 := by
  constructor
  · cases ascii : c.isAscii with
    | true =>
      have small := plain (65, 90, 1, 32) List.mem_cons_self
      have kept : ¬(65 ≤ c.val ∧ c.val ≤ 90) := by
        rintro ⟨low, high⟩
        exact Bool.false_ne_true (small.symm.trans ((inRun_iff _ _).mpr ⟨low, high, Nat.mod_one _⟩))
      simp [lower, ascii, asciiLower, kept]
    | false =>
      have other : c ≠ 0x130 := by
        rintro rfl
        exact absurd plain (by decide +kernel)
      have absent : (lowerRuns.find? fun run => inRun run c.val) = none := by
        refine List.find?_eq_none.mpr fun run known => ?_
        simp [plain run (List.mem_cons_of_mem _ (List.mem_cons_of_mem _ known))]
      exact lower_of_not_inRun ascii other absent
  · rintro rfl
    exact absurd plain (by decide +kernel)

/-- The forms of code points are plain. -/
theorem plain_of_mem_lower {c d : CodePoint} (member : d ∈ c.lower) : d.Plain := by
  cases ascii : c.isAscii with
  | true =>
    have small : c.val < 128 := by simpa [isAscii] using ascii
    have same : d = c.asciiLower := by simpa [lower, ascii] using member
    rw [same, asciiLower]
    split
    · rename_i upper
      exact plain_of_inRun List.mem_cons_self
        ((inRun_iff (65, 90, 1, 32) c.val).mpr ⟨upper.1, upper.2, Nat.mod_one _⟩)
    · rename_i kept
      intro run known
      by_contra inside
      obtain ⟨low, high, -⟩ := (inRun_iff _ _).mp (Bool.of_not_eq_false inside)
      rcases List.mem_cons.mp known with rfl | later
      · exact kept ⟨low, high⟩
      · have := beyond_ascii run later
        omega
  | false =>
    by_cases special : c = 0x130
    · have two : CodePoint.lower 0x130 = [0x69, 0x307] := rfl
      rw [special, two] at member
      rcases List.mem_cons.mp member with rfl | second
      · decide +kernel
      · cases List.mem_singleton.mp second
        decide +kernel
    · cases found : lowerRuns.find? (inRun · c.val) with
      | some run =>
        rw [lower_of_inRun ascii special found] at member
        cases List.mem_singleton.mp member
        exact plain_of_inRun (List.mem_cons_of_mem _ (List.mem_of_find?_eq_some found))
          (by simpa using List.find?_some found)
      | none =>
        rw [lower_of_not_inRun ascii special found] at member
        cases List.mem_singleton.mp member
        intro run known
        by_contra inside
        obtain ⟨low, high, -⟩ := (inRun_iff _ _).mp (Bool.of_not_eq_false inside)
        rcases List.mem_cons.mp known with rfl | later
        · have within : c.val ≤ 90 := high
          simp only [isAscii, decide_eq_false_iff_not] at ascii
          omega
        · rcases List.mem_cons.mp later with rfl | listed
          · exact special (Fin.ext (Nat.le_antisymm high low))
          · exact List.find?_eq_none.mp found run listed (Bool.of_not_eq_false inside)

end CodePoint

/-! ## Texts -/

namespace Text

theorem plain_of_mem_lowerAfter {t : Text} {cased : Bool} {d : CodePoint}
    (member : d ∈ t.lowerAfter cased) : d.Plain := by
  induction t generalizing cased with
  | nil => cases member
  | cons c rest ih =>
    rcases List.mem_append.mp member with here | later
    · split at here
      · split at here
        all_goals
          cases List.mem_singleton.mp here
          decide +kernel
      · exact CodePoint.plain_of_mem_lower here
    · exact ih later

theorem plain_of_mem_lower {t : Text} {d : CodePoint} (member : d ∈ t.lower) : d.Plain := by
  unfold lower at member
  split at member
  · rename_i ascii
    obtain ⟨c, inside, rfl⟩ := List.mem_map.mp member
    have small := List.all_eq_true.mp ascii c inside
    exact CodePoint.plain_of_mem_lower (c := c) (by simp [CodePoint.lower, small])
  · exact plain_of_mem_lowerAfter member

/-- Plain code points are left as they are, whatever stands around them. -/
theorem lowerAfter_of_plain {t : Text} (plain : ∀ c ∈ t, c.Plain) (cased : Bool) :
    t.lowerAfter cased = t := by
  induction t generalizing cased with
  | nil => rfl
  | cons c rest ih =>
    obtain ⟨own, noSigma⟩ := CodePoint.lower_of_plain (plain c List.mem_cons_self)
    have others := ih fun d member => plain d (List.mem_cons_of_mem _ member)
    simp [lowerAfter, noSigma, own, others]

/-- A text in lower case is its own lower-case form. -/
@[simp] theorem lower_lower (t : Text) : t.lower.lower = t.lower := by
  have plain : ∀ c ∈ t.lower, c.Plain := fun c => plain_of_mem_lower
  cases ascii : t.lower.isAscii with
  | true =>
    rw [lower_of_ascii ascii]
    refine (List.map_congr_left fun c member => ?_).trans (List.map_id _)
    have small := List.all_eq_true.mp ascii c member
    simpa [CodePoint.lower, small] using (CodePoint.lower_of_plain (plain c member)).1
  | false =>
    rw [lower, if_neg (by simpa [isAscii] using ascii)]
    exact lowerAfter_of_plain plain false

end Text

end Paymaster

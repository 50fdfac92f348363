import Paymaster.Proofs.CallStats.Noted

/-!
# Counters against what was noted

The counters for calls are those of all calls that were noted (`CallStats.counts_after`), and those
for sponsorships and grants tell how many there were (`CallStats.deeds_after`). The counters of
codes are a tally; sent as members, every code stands with its number under its own text
(`CallStats.lookup_codeMembers`).
-/

namespace Paymaster

namespace CallStats

/-! ## Codes -/

/-- How often each code was noted, in the order in which the codes first came. -/
def tally (codes : List Int) : Entries Int Nat :=
  codes.foldl (fun counts code => counts.alter (fun n => n.getD 0 + 1) code) []

theorem tally_snoc (codes : List Int) (code : Int) :
    tally (codes ++ [code]) = (tally codes).alter (fun n => n.getD 0 + 1) code := by
  rw [tally, List.foldl_append]
  rfl

theorem nodup_tally (codes : List Int) : (Entries.keys (tally codes)).Nodup := by
  induction codes using List.reverseRecOn with
  | nil => exact List.nodup_nil
  | append_singleton codes code ih =>
    rw [tally_snoc]
    exact Entries.nodup_alter ih _ _

/-- Of what is found anywhere, how often it is found. -/
def times? (n : Nat) : Option Nat :=
  if n = 0 then none else some n

theorem lookup_tally (codes : List Int) (code : Int) :
    (tally codes).lookup code = times? (codes.count code) := by
  induction codes using List.reverseRecOn with
  | nil => rfl
  | append_singleton codes last ih =>
    rw [tally_snoc, List.count_append]
    by_cases same : code = last
    · subst same
      rw [Entries.lookup_alter_self, ih]
      by_cases none : codes.count code = 0 <;> simp [times?, none]
    · rw [Entries.lookup_alter_of_ne _ same, ih]
      simp [Ne.symm same]

/-- Integers as codes are the same only if they are the same integers. -/
theorem alter_map_int (change : Option Nat → Nat) (code : Int) (counts : Entries Int Nat) :
    Entries.alter change (ErrorCode.int code) (counts.map fun e => (.int e.1, e.2)) =
      (counts.alter change code).map fun e => (.int e.1, e.2) := by
  induction counts with
  | nil => rfl
  | cons e rest ih =>
    obtain ⟨k, n⟩ := e
    have same : (ErrorCode.int k == .int code) = (k == code) := by
      show decide (k = code) = (k == code)
      rw [beq_eq_decide]
    simp only [List.map_cons, Entries.alter, same]
    split
    · rfl
    · rw [ih, List.map_cons]

theorem mem_tally_iff (codes : List Int) (e : Int × Nat) :
    e ∈ tally codes ↔ e.1 ∈ codes ∧ e.2 = codes.count e.1 := by
  obtain ⟨code, n⟩ := e
  have found := lookup_tally codes code
  constructor
  · intro member
    rw [Entries.lookup_of_mem (nodup_tally codes) member] at found
    unfold times? at found
    split at found
    · cases found
    · rename_i some
      cases found
      exact ⟨List.count_pos_iff.mp (Nat.pos_of_ne_zero some), rfl⟩
  · intro ⟨member, count⟩
    dsimp only at member count
    refine Entries.mem_of_lookup ?_
    rw [found, times?, if_neg (List.count_pos_iff.mpr member).ne', count]

/-- Every code stands with its number under its own text. -/
theorem lookup_codeMembers (codes : List Int) (key : Text) (value : Json) :
    (codeMembers ((tally codes).map fun e => (ErrorCode.int e.1, e.2))).lookup key =
        some value ↔
      ∃ code ∈ codes, key = Digits.signedDecimal code ∧ value = .int (codes.count code) := by
  have display (n : Int) : ErrorCode.display (.int n) = Digits.signedDecimal n := by
    simp [ErrorCode.display, Json.display, Json.displayInner]
  have once : ((tally codes).map fun e => Digits.signedDecimal e.1).Nodup := by
    have different : Function.Injective Digits.signedDecimal :=
      fun _ _ same => Digits.signedDecimal_inj same
    simpa [Entries.keys, Function.comp_def] using (nodup_tally codes).map different
  have members : codeMembers ((tally codes).map fun e => (ErrorCode.int e.1, e.2)) =
      (tally codes).map fun e => (Digits.signedDecimal e.1, .int e.2) := by
    refine (foldl_put ?_).trans ?_
    · simpa [Entries.keys, Function.comp_def, display] using once
    · simp [Function.comp_def, display]
  rw [members]
  constructor
  · intro found
    obtain ⟨e, member, same⟩ := List.mem_map.mp (Entries.mem_of_lookup found)
    obtain ⟨among, count⟩ := (mem_tally_iff codes e).mp member
    cases same
    exact ⟨e.1, among, rfl, by rw [count]⟩
  · rintro ⟨code, among, rfl, rfl⟩
    refine Entries.lookup_of_mem (by simpa [Entries.keys, Function.comp_def] using once) ?_
    exact List.mem_map.mpr ⟨(code, _), (mem_tally_iff codes _).mpr ⟨among, rfl⟩, rfl⟩

/-- All codes are written exactly if each of those that were noted is. -/
theorem codes_written_iff (codes : List Int) :
    (((tally codes).map fun e => (ErrorCode.int e.1, e.2)).all fun e => e.1.isWritten) = true ↔
      ∀ code ∈ codes, code.natAbs < Nat.pow 10 Integer.digitLimit := by
  have written (code : Int) : (ErrorCode.int code).isWritten = true ↔
      code.natAbs < Nat.pow 10 Integer.digitLimit := by
    unfold ErrorCode.isWritten Integer.write?
    split <;> simp_all
  simp only [List.all_map, List.all_eq_true, Function.comp_apply, written]
  constructor
  · intro all code member
    exact all (code, codes.count code) ((mem_tally_iff codes _).mpr ⟨member, rfl⟩)
  · intro all e member
    exact all e.1 ((mem_tally_iff codes e).mp member).1

/-! ## Calls -/

/-- The counts of the calls of an operation; none if it was not called. -/
def countOf? (calls : List Noted) (name : Text) : Option CallCount :=
  match calls.filter fun c => c.method == name with
  | [] => none
  | calls => some (countOf calls)

theorem countOf_snoc (calls : List Noted) (c : Noted) :
    countOf (calls ++ [c]) = bump c.succeeded (countOf calls) := by
  cases success : c.succeeded <;> simp [countOf, bump, success]

theorem getD_countOf? (calls : List Noted) (name : Text) :
    (countOf? calls name).getD {} = countOf (calls.filter fun c => c.method == name) := by
  unfold countOf?
  split
  · rename_i none
    rw [none]
    rfl
  · rfl

theorem countOf?_snoc (calls : List Noted) (c : Noted) :
    countOf? (calls ++ [c]) c.method =
      some (bump c.succeeded ((countOf? calls c.method).getD {})) := by
  have last : [c].filter (fun d => d.method == c.method) = [c] := by simp
  rw [getD_countOf?, ← countOf_snoc, countOf?, List.filter_append, last]
  cases calls.filter fun d => d.method == c.method <;> rfl

theorem countOf?_snoc_of_ne (calls : List Noted) {c : Noted} {name : Text}
    (other : name ≠ c.method) : countOf? (calls ++ [c]) name = countOf? calls name := by
  have none : [c].filter (fun d => d.method == name) = [] := by simp [Ne.symm other]
  rw [countOf?, List.filter_append, none, List.append_nil, countOf?]

/-- The counters are those of all calls. -/
structure Counts (calls : List Noted) (stats : CallStats) : Prop where
  total : stats.total = countOf calls
  byMethod : ∀ name, stats.byMethod.lookup name = countOf? calls name
  methodsOnce : (Entries.keys stats.byMethod).Nodup
  byCode : stats.byCode = (tally (calls.filterMap Noted.code?)).map fun e => (.int e.1, e.2)

theorem Counts.of_counters {calls : List Noted} {stats other : CallStats}
    (counts : Counts calls stats) (same : other.counters = stats.counters) :
    Counts calls other := by
  have counts : Counts calls stats.counters := { counts with }
  rw [← same] at counts
  exact { counts with }

theorem Counts.counted {calls : List Noted} {stats : CallStats} (counts : Counts calls stats)
    (now : Instant) (method : Text) (code? : Option Int) :
    Counts (calls ++ [⟨now, method, code?⟩]) (stats.counted now method (code?.map .int)) where
  total := by
    rw [counted_total, counts.total, countOf_snoc]
    cases code? <;> rfl
  byMethod := by
    intro name
    rw [counted_byMethod]
    by_cases same : name = method
    · subst same
      rw [Entries.lookup_alter_self, counts.byMethod, countOf?_snoc]
      cases code? <;> rfl
    · rw [Entries.lookup_alter_of_ne _ same, counts.byMethod, countOf?_snoc_of_ne _ same]
  methodsOnce := by
    rw [counted_byMethod]
    exact Entries.nodup_alter counts.methodsOnce _ _
  byCode := by
    rw [counted_byCode]
    cases code? with
    | none => simpa using counts.byCode
    | some code =>
      dsimp only [Option.map_some]
      rw [counts.byCode, alter_map_int, ← tally_snoc]
      simp

/-- Every event keeps the counters those of all calls; a summary leaves them as they are. -/
theorem counts_after (retention : Int) (start : Instant) (events : List Event) :
    Counts (noted start events) (after retention start events) := by
  induction events using List.reverseRecOn with
  | nil =>
    exact { total := rfl, byMethod := fun _ => rfl, methodsOnce := List.nodup_nil, byCode := rfl }
  | append_singleton events e ih =>
    rw [after_snoc, noted_snoc]
    cases e with
    | call method reply =>
      rw [step_call]
      exact (ih.counted _ method reply.code?).of_counters (counters_recordCall _ _ _ _)
    | summary =>
      simp only [Event.noted, List.append_nil]
      exact ih.of_counters (counters_summarize _ _)
    | _ =>
      simp only [Event.noted, List.append_nil]
      exact { ih with }

/-! ## Sponsorships and grants -/

/-- The counters are those of all sponsorships and grants. -/
structure Deeds (events : List Event) (stats : CallStats) : Prop where
  sponsorships : stats.sponsorships = events.countP Event.isSponsorship
  grants : stats.grants = events.countP Event.isGrant
  gas : stats.gas = gasOf events

theorem step_deeds (now : Instant) (stats : CallStats) (e : Event) :
    (step now stats e).sponsorships = stats.sponsorships + e.isSponsorship.toNat ∧
      (step now stats e).grants = stats.grants + e.isGrant.toNat ∧
      (step now stats e).gas = stats.gas + e.gas := by
  cases e with
  | call method reply =>
    have same := counters_recordCall stats now method (reply.code?.map .int)
    obtain ⟨sponsorships, grants, gas⟩ := counted_deeds stats now method (reply.code?.map .int)
    rw [step_call]
    exact ⟨(congrArg CallStats.sponsorships same).trans sponsorships,
      (congrArg CallStats.grants same).trans grants,
      (congrArg CallStats.gas same).trans (gas.trans (Int.add_zero _).symm)⟩
  | summary =>
    have same := counters_summarize stats now
    exact ⟨(congrArg CallStats.sponsorships same).trans (Nat.add_zero _).symm,
      (congrArg CallStats.grants same).trans (Nat.add_zero _).symm,
      (congrArg CallStats.gas same).trans (Int.add_zero _).symm⟩
  | sponsorship gas => exact ⟨rfl, rfl, rfl⟩
  | grant => exact ⟨rfl, rfl, (Int.add_zero _).symm⟩
  | wait micros => exact ⟨rfl, rfl, (Int.add_zero _).symm⟩

theorem deeds_after (retention : Int) (start : Instant) (events : List Event) :
    Deeds events (after retention start events) := by
  induction events using List.reverseRecOn with
  | nil => exact ⟨rfl, rfl, rfl⟩
  | append_singleton events e ih =>
    obtain ⟨sponsorships, grants, gas⟩ :=
      step_deeds (timeAfter start events) (after retention start events) e
    rw [after_snoc]
    constructor
    case sponsorships =>
      rw [sponsorships, ih.sponsorships, List.countP_append]
      cases kind : e.isSponsorship <;> simp [kind]
    case grants =>
      rw [grants, ih.grants, List.countP_append]
      cases kind : e.isGrant <;> simp [kind]
    case gas =>
      rw [gas, ih.gas]
      simp [gasOf]

/-! ## All counters -/

/-- The counters after an event depend on those before it only. -/
theorem counters_step {stats other : CallStats} (same : stats.counters = other.counters)
    (now : Instant) (e : Event) : (step now stats e).counters = (step now other e).counters := by
  have own (stats : CallStats) :
      (step now stats e).counters = (step now stats.counters e).counters := by
    cases e with
    | call method reply =>
      simp only [step_call, counters_recordCall]
      cases reply.code? <;> rfl
    | summary =>
      exact (counters_summarize stats now).trans (counters_summarize stats.counters now).symm
    | _ => rfl
  rw [own stats, own other, same]

end CallStats

end Paymaster

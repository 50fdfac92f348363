import Mathlib.Data.List.Nodup
import Paymaster.Proofs.Rpc.Codes

/-!
# Statistics that agree with what happened

Three parties count: whoever watches the dispatcher counts every call with its outcome, and two
operations count what they did. The counts agree with the number of calls and with each other
(`CallStats.Agree`). The dropping of old times is no matter to that (`CallStats.agree_counters`),
and a call that is counted after what its operation has counted keeps the agreement
(`CallStats.Agree.recordCall`).
-/

namespace Paymaster

/-! ## Sums over entries -/

namespace Entries

variable {κ α : Type} [BEq κ]

/-- The sum of a number over all values. -/
def total (f : α → Nat) (entries : Entries κ α) : Nat :=
  (entries.map fun e => f e.2).sum

/-- A change that adds to the number of a value adds to the sum, be the key new or not. -/
theorem total_alter {f : α → Nat} {change : Option α → α} {more : Nat}
    (fresh : f (change none) = more) (known : ∀ a, f (change (some a)) = f a + more) (key : κ)
    (entries : Entries κ α) : total f (alter change key entries) = total f entries + more := by
  induction entries with
  | nil => simp [alter, total, fresh]
  | cons e rest ih =>
    obtain ⟨k, a⟩ := e
    unfold total at ih ⊢
    unfold alter
    split
    · simp only [List.map_cons, List.sum_cons, known]
      omega
    · simp only [List.map_cons, List.sum_cons, ih]
      omega

end Entries

namespace ErrorCode

instance : ReflBEq ErrorCode where
  rfl := by
    intro code
    show code.same code = true
    unfold same
    cases value : code.toInt? with
    | some n => simp
    | none => cases code with
      | truth b => simp [toInt?] at value
      | int n => simp [toInt?] at value
      | _ => simp

/-- Different integers are sent under different texts. -/
theorem display_int_inj {n k : Int} (same : display (.int n) = display (.int k)) : n = k := by
  refine Digits.signedDecimal_inj ?_
  simpa [display, Json.display, Json.displayInner] using same

end ErrorCode

namespace CallStats

variable {stats : CallStats}

/-! ## Counters apart from times -/

/-- The statistics without the times of calls. -/
def counters (stats : CallStats) : CallStats :=
  { stats with succeeded := [], failed := [] }

theorem counters_of_pruned {pruned : CallStats} {now : Instant}
    (kept : stats.pruned now = .ok pruned) : pruned.counters = stats.counters := by
  obtain ⟨period, -, kept⟩ := UserOperation.bind_eq_ok kept
  obtain ⟨cutoff, -, kept⟩ := UserOperation.bind_eq_ok kept
  cases kept
  rfl

theorem counters_recordCall (stats : CallStats) (now : Instant) (method : Text)
    (code? : Option ErrorCode) :
    (stats.recordCall now method code?).1.counters =
      (stats.counted now method code?).counters := by
  unfold recordCall
  cases kept : (stats.counted now method code?).pruned now with
  | ok pruned =>
    simp only [kept]
    exact counters_of_pruned kept
  | error fault => simp only [kept]

theorem counters_summarize (stats : CallStats) (now : Instant) :
    (stats.summarize now).1.counters = stats.counters := by
  unfold summarize
  cases kept : stats.pruned now with
  | ok pruned => exact counters_of_pruned kept
  | error fault => rfl

/-- A summary is told exactly if an hour ago was an instant and all numbers are written. -/
theorem summary_eq_ok_iff (stats : CallStats) (now : Instant) (summary : Summary) :
    stats.summary now = .ok summary ↔ ∃ start gas, now.before .hour = .ok start ∧
      Integer.write? stats.gas = some gas ∧
      (stats.byCode.all fun e => e.1.isWritten) = true ∧
      summary = ⟨now, stats, countAfter start stats.succeeded, countAfter start stats.failed,
        gas⟩ := by
  unfold CallStats.summary
  cases now.before .hour with
  | error fault => simp [Except.mapError, bind, Except.bind]
  | ok start =>
    cases Integer.write? stats.gas with
    | none => simp [Except.mapError, bind, Except.bind, throw, throwThe, MonadExceptOf.throw]
    | some gas =>
      cases written : stats.byCode.all fun e => e.1.isWritten with
      | true =>
        simp [Except.mapError, bind, Except.bind, pure, Except.pure, eq_comm]
      | false =>
        simp [Except.mapError, bind, Except.bind, throw, throwThe, MonadExceptOf.throw]

theorem summarize_eq_ok_iff (stats : CallStats) (now : Instant) (summary : Summary) :
    (stats.summarize now).2 = .ok summary ↔
      ∃ pruned, stats.pruned now = .ok pruned ∧ pruned.summary now = .ok summary := by
  unfold summarize
  cases stats.pruned now with
  | error fault => simp
  | ok pruned => simp

/-- A summary tells the counters as they are. -/
theorem of_summarize {now : Instant} {summary : Summary}
    (told : (stats.summarize now).2 = .ok summary) :
    summary.stats.counters = stats.counters ∧ Integer.write? stats.gas = some summary.gas := by
  obtain ⟨pruned, kept, told⟩ := (summarize_eq_ok_iff _ _ _).mp told
  obtain ⟨start, gas, -, written, -, rfl⟩ := (summary_eq_ok_iff _ _ _).mp told
  have same := counters_of_pruned kept
  have sameGas : pruned.counters.gas = stats.counters.gas := by rw [same]
  change pruned.gas = stats.gas at sameGas
  exact ⟨same, sameGas ▸ written⟩

/-! ## Agreement -/

/-- The counts of an operation. -/
def count (stats : CallStats) (name : Text) : CallCount :=
  (stats.byMethod.lookup name).getD {}

/-- The statistics agree with a number of calls, with each other, and with the gas of one
sponsorship. -/
structure Agree (gas : Int) (calls : Nat) (stats : CallStats) : Prop where
  calls : stats.total.calls = calls
  outcomes : stats.total.calls = stats.total.successes + stats.total.failures
  callsByMethod : Entries.total CallCount.calls stats.byMethod = stats.total.calls
  successesByMethod : Entries.total CallCount.successes stats.byMethod = stats.total.successes
  failuresByMethod : Entries.total CallCount.failures stats.byMethod = stats.total.failures
  failuresByCode : Entries.total id stats.byCode = stats.total.failures
  codes : ∀ code ∈ Entries.keys stats.byCode, ∃ n, code = .int n
  codesOnce : (Entries.keys stats.byCode).Nodup
  names : ∀ name ∈ Entries.keys stats.byMethod,
    name ∈ Methods.names ∨ name = Dispatcher.unknownName
  namesOnce : (Entries.keys stats.byMethod).Nodup
  sponsorships : stats.sponsorships = (stats.count "pm_sponsorUserOperation").successes
  grants : stats.grants = (stats.count "pm_requestGas").successes
  gas : stats.gas = stats.sponsorships * gas

variable {gas : Int} {calls : Nat}

theorem agree_counters : stats.counters.Agree gas calls ↔ stats.Agree gas calls :=
  ⟨fun agree => { agree with }, fun agree => { agree with }⟩

theorem Agree.of_counters {other : CallStats} (agree : stats.Agree gas calls)
    (same : other.counters = stats.counters) : other.Agree gas calls := by
  rw [← agree_counters, same, agree_counters]
  exact agree

/-- Fresh statistics agree with no calls. -/
theorem agree_fresh (retention : Int) (gas : Int) : Agree gas 0 { retention } where
  calls := rfl
  outcomes := rfl
  callsByMethod := rfl
  successesByMethod := rfl
  failuresByMethod := rfl
  failuresByCode := rfl
  codes := fun _ member => (List.not_mem_nil member).elim
  codesOnce := List.nodup_nil
  names := fun _ member => (List.not_mem_nil member).elim
  namesOnce := List.nodup_nil
  sponsorships := rfl
  grants := rfl
  gas := by simp

/-! ## Codes as they are sent -/

/-- Members are put behind those that are there, if every text is new. -/
theorem foldl_put {byCode : Entries ErrorCode Nat} {members : Entries Text Json}
    (once : (Entries.keys members ++ (Entries.keys byCode).map ErrorCode.display).Nodup) :
    byCode.foldl (fun members (code, n) => members.put code.display (.int n)) members =
      members ++ byCode.map fun e => (e.1.display, .int e.2) := by
  induction byCode generalizing members with
  | nil => simp
  | cons e rest ih =>
    obtain ⟨code, n⟩ := e
    simp only [Entries.keys, List.map_cons, List.nodup_middle] at once
    have fresh : code.display ∉ Entries.keys members := fun there =>
      (List.nodup_cons.mp once).1 (List.mem_append_left _ there)
    rw [List.foldl_cons]
    dsimp only
    rw [Entries.put_of_not_mem fresh, ih]
    · simp
    · simpa [Entries.keys, List.nodup_middle] using once

/-- The count of every code is sent under a text of its own. -/
theorem Agree.codeMembers (agree : stats.Agree gas calls) :
    codeMembers stats.byCode = stats.byCode.map fun e => (e.1.display, .int e.2) := by
  refine (foldl_put ?_).trans (List.nil_append _)
  refine List.Nodup.map_on (fun code member code' member' same => ?_) agree.codesOnce
  obtain ⟨n, rfl⟩ := agree.codes code member
  obtain ⟨k, rfl⟩ := agree.codes code' member'
  rw [ErrorCode.display_int_inj same]

/-! ## Counting a call -/

@[simp] theorem bump_calls (success : Bool) (c : CallCount) :
    (bump success c).calls = c.calls + 1 := by
  cases success <;> rfl

@[simp] theorem bump_successes (success : Bool) (c : CallCount) :
    (bump success c).successes = c.successes + success.toNat := by
  cases success <;> rfl

@[simp] theorem bump_failures (success : Bool) (c : CallCount) :
    (bump success c).failures = c.failures + (!success).toNat := by
  cases success <;> rfl

@[simp] theorem counted_total (stats : CallStats) (now : Instant) (method : Text)
    (code? : Option ErrorCode) :
    (stats.counted now method code?).total = bump code?.isNone stats.total := by
  cases code? <;> rfl

@[simp] theorem counted_byMethod (stats : CallStats) (now : Instant) (method : Text)
    (code? : Option ErrorCode) :
    (stats.counted now method code?).byMethod =
      stats.byMethod.alter (fun c => bump code?.isNone (c.getD {})) method := by
  cases code? <;> rfl

/-- The sums over the operations move as the totals do. -/
theorem total_counted {f : CallCount → Nat} {more : Nat} {success : Bool}
    (moves : ∀ c, f (bump success c) = f c + more) (zero : f {} = 0) (method : Text)
    (entries : Entries Text CallCount) :
    Entries.total f (entries.alter (fun c => bump success (c.getD {})) method) =
      Entries.total f entries + more := by
  refine Entries.total_alter ?_ (fun c => moves c) method entries
  exact (moves {}).trans (by rw [zero, Nat.zero_add])

theorem counted_byCode (stats : CallStats) (now : Instant) (method : Text)
    (code? : Option ErrorCode) :
    (stats.counted now method code?).byCode = match code? with
      | none => stats.byCode
      | some code => stats.byCode.alter (fun n => n.getD 0 + 1) code := by
  cases code? <;> rfl

/-- One code more for a failure, and none for a success. -/
theorem total_byCode_counted (stats : CallStats) (now : Instant) (method : Text)
    (code? : Option ErrorCode) :
    Entries.total id (stats.counted now method code?).byCode =
      Entries.total id stats.byCode + (!code?.isNone).toNat := by
  rw [counted_byCode]
  cases code? with
  | none => rfl
  | some code => exact Entries.total_alter rfl (fun _ => rfl) code stats.byCode

/-- Only the successes of the operation that was called move. -/
theorem successes_counted (stats : CallStats) (now : Instant) (method name : Text)
    (code? : Option ErrorCode) :
    ((stats.counted now method code?).count name).successes =
      (stats.count name).successes + (code?.isNone && decide (method = name)).toNat := by
  unfold count
  rw [counted_byMethod]
  by_cases same : method = name
  · subst same
    rw [Entries.lookup_alter_self]
    simp
  · rw [Entries.lookup_alter_of_ne _ (Ne.symm same)]
    simp [same]

/-! ## What operations count -/

/-- What an operation counts itself when it succeeds. -/
def deed (gas : Int) (name : Text) (success : Bool) (stats : CallStats) : CallStats :=
  if success then
    if name = "pm_sponsorUserOperation" then stats.recordSponsorship gas
    else if name = "pm_requestGas" then stats.recordGrant
    else stats
  else stats

@[simp] theorem deed_total (stats : CallStats) (gas : Int) (name : Text) (success : Bool) :
    (stats.deed gas name success).total = stats.total := by
  unfold deed
  repeat' split
  all_goals rfl

@[simp] theorem deed_byMethod (stats : CallStats) (gas : Int) (name : Text) (success : Bool) :
    (stats.deed gas name success).byMethod = stats.byMethod := by
  unfold deed
  repeat' split
  all_goals rfl

@[simp] theorem deed_byCode (stats : CallStats) (gas : Int) (name : Text) (success : Bool) :
    (stats.deed gas name success).byCode = stats.byCode := by
  unfold deed
  repeat' split
  all_goals rfl

theorem requestGas_ne_sponsor : ("pm_requestGas" : Text) ≠ "pm_sponsorUserOperation" := by
  decide

/-- One sponsorship more, with its gas, exactly for a success of the operation for it. -/
theorem deed_sponsorships (stats : CallStats) (gas : Int) (name : Text) (success : Bool) :
    (stats.deed gas name success).sponsorships = stats.sponsorships +
        (success && decide (name = "pm_sponsorUserOperation")).toNat ∧
      (stats.deed gas name success).gas = stats.gas +
        (success && decide (name = "pm_sponsorUserOperation")).toNat * gas := by
  unfold deed
  cases success with
  | false => simp
  | true =>
    by_cases sponsors : name = "pm_sponsorUserOperation"
    · simp [sponsors, recordSponsorship]
    · by_cases grants : name = "pm_requestGas"
      · simp [grants, recordGrant, requestGas_ne_sponsor]
      · simp [sponsors, grants]

/-- One grant more exactly for a success of the operation for it. -/
theorem deed_grants (stats : CallStats) (gas : Int) (name : Text) (success : Bool) :
    (stats.deed gas name success).grants = stats.grants +
      (success && decide (name = "pm_requestGas")).toNat := by
  unfold deed
  cases success with
  | false => simp
  | true =>
    by_cases sponsors : name = "pm_sponsorUserOperation"
    · simp [sponsors, recordSponsorship, requestGas_ne_sponsor.symm]
    · by_cases grants : name = "pm_requestGas"
      · simp [grants, recordGrant, requestGas_ne_sponsor]
      · simp [sponsors, grants]

/-- The watcher of the dispatcher leaves alone what the operations count. -/
theorem counted_deeds (stats : CallStats) (now : Instant) (method : Text)
    (code? : Option ErrorCode) :
    (stats.counted now method code?).sponsorships = stats.sponsorships ∧
      (stats.counted now method code?).grants = stats.grants ∧
      (stats.counted now method code?).gas = stats.gas := by
  cases code? with
  | none => exact ⟨rfl, rfl, rfl⟩
  | some code => exact ⟨rfl, rfl, rfl⟩

/-- A call that is counted with its outcome, after what its operation has counted itself, keeps
the agreement with one call more. -/
theorem Agree.recordCall (agree : stats.Agree gas calls) {method : Text}
    (known : method ∈ Methods.names ∨ method = Dispatcher.unknownName) (now : Instant)
    {code? : Option ErrorCode} (whole : ∀ code, code? = some code → ∃ n, code = .int n) :
    ((stats.deed gas method code?.isNone).recordCall now method code?).1.Agree gas (calls + 1) := by
  refine Agree.of_counters ?_ (counters_recordCall _ now method code?)
  let after := stats.deed gas method code?.isNone
  obtain ⟨sponsorships, gasMoves⟩ := deed_sponsorships stats gas method code?.isNone
  obtain ⟨sponsorshipsKept, grantsKept, gasKept⟩ := counted_deeds after now method code?
  have countKept (name : Text) : after.count name = stats.count name := by
    rw [count, deed_byMethod, count]
  constructor
  case calls => simp [agree.calls]
  case outcomes =>
    have before := agree.outcomes
    have either : code?.isNone.toNat + (!code?.isNone).toNat = 1 := by cases code? <;> rfl
    simp only [counted_total, deed_total, bump_calls, bump_successes, bump_failures]
    omega
  case callsByMethod =>
    rw [counted_byMethod, counted_total, deed_byMethod, deed_total, bump_calls,
      ← agree.callsByMethod]
    exact total_counted (fun c => bump_calls _ c) rfl method _
  case successesByMethod =>
    rw [counted_byMethod, counted_total, deed_byMethod, deed_total, bump_successes,
      ← agree.successesByMethod]
    exact total_counted (fun c => bump_successes _ c) rfl method _
  case failuresByMethod =>
    rw [counted_byMethod, counted_total, deed_byMethod, deed_total, bump_failures,
      ← agree.failuresByMethod]
    exact total_counted (fun c => bump_failures _ c) rfl method _
  case failuresByCode =>
    rw [total_byCode_counted, counted_total, deed_byCode, deed_total, bump_failures,
      agree.failuresByCode]
  case codes =>
    rw [counted_byCode, deed_byCode]
    cases code? with
    | none => exact agree.codes
    | some code =>
      intro other member
      rcases Entries.mem_keys_alter member with rfl | member
      · exact whole _ rfl
      · exact agree.codes other member
  case codesOnce =>
    rw [counted_byCode, deed_byCode]
    cases code? with
    | none => exact agree.codesOnce
    | some code => exact Entries.nodup_alter agree.codesOnce _ code
  case names =>
    intro name member
    rw [counted_byMethod, deed_byMethod] at member
    rcases Entries.mem_keys_alter member with rfl | member
    · exact known
    · exact agree.names name member
  case namesOnce =>
    rw [counted_byMethod, deed_byMethod]
    exact Entries.nodup_alter agree.namesOnce _ _
  case sponsorships =>
    rw [sponsorshipsKept, sponsorships, successes_counted, countKept, agree.sponsorships]
  case grants =>
    rw [grantsKept, deed_grants, successes_counted, countKept, agree.grants]
  case gas =>
    rw [gasKept, gasMoves, sponsorshipsKept, sponsorships, agree.gas, Nat.cast_add, Int.add_mul]

end CallStats

end Paymaster

import Paymaster.Proofs.Engine.Failing
import Paymaster.Proofs.Engine.Signing
import Paymaster.Proofs.Ledger.Tokens
import Paymaster.Proofs.UserOperation.Reading

/-!
# What a sponsorship leaves behind

A sponsorship is charged before it is authorized, so it may fail in between. If the store, the
node and the key answer, only two things are left to make it fail after its charge: a limit
that does not fit a word, and a time without a range (`Engine.Signable`). So a sponsorship is
either charged once and authorized or fails and leaves every record as it was, exactly if its
limits and its time are signable or it was not charged (`Engine.chargedOrUnchanged_iff`).
-/

namespace Paymaster

/-- An exchange in which the store, the node or the key failed. -/
def Exchange.fails : Exchange → Bool
  | ⟨.findAccount _, .error _⟩ => true
  | ⟨.findHolder _, .error _⟩ => true
  | ⟨.saveAccount _, .error _⟩ => true
  | ⟨.callContract _ _, answer⟩ => (Engine.told answer).isNone
  | ⟨.sign _ _, none⟩ => true
  | _ => false

namespace Engine

/-! ## What can be signed -/

/-- Limits that fit a word. -/
def LimitsFit (limits : GasLimits) : Prop :=
  limits.preVerification < Abi.wordBound ∧ limits.verification < Abi.wordBound ∧
    limits.call < Abi.wordBound

/-- A time after which a day is left of the times of an authorization. -/
def TimeFits (now : Instant) : Prop :=
  0 ≤ now.unixSeconds ∧ now.unixSeconds + validitySeconds < Abi.timeBound

theorem timeFits_iff (now : Instant) : TimeFits now ↔ ∃ range, rangeAt now = .ok range := by
  have day : validitySeconds = 86400 := rfl
  unfold TimeFits rangeAt validityWindow TimeRange.ofInts
  constructor
  · rintro ⟨after, until'⟩
    have first : 0 ≤ now.unixSeconds + validitySeconds ∧
        now.unixSeconds + validitySeconds < Abi.timeBound := by omega
    have second : 0 ≤ now.unixSeconds ∧ now.unixSeconds < Abi.timeBound := by omega
    simp only [dif_pos first, dif_pos second]
    exact ⟨_, rfl⟩
  · rintro ⟨range, within⟩
    by_cases first : 0 ≤ now.unixSeconds + validitySeconds ∧
        now.unixSeconds + validitySeconds < Abi.timeBound
    · by_cases second : 0 ≤ now.unixSeconds ∧ now.unixSeconds < Abi.timeBound
      · exact ⟨second.1, first.2⟩
      · simp only [dif_pos first, dif_neg second] at within
        cases within
    · simp only [dif_neg first] at within
      cases within

/-- Of an operation that was read only the limits may not fit the call that hashes it. -/
theorem limitsFit_iff {engine : Engine} {raw : Json} {op : UserOperation}
    (read : UserOperation.read raw = .ok op) (range : TimeRange) :
    LimitsFit engine.limits ↔ ∃ data, Abi.HashCall.data?
      ⟨engine.signingOperation op range, range.validUntil, range.validAfter⟩ = some data := by
  have fits := UserOperation.fits_of_read read
  simp only [UserOperation.fields, List.mem_cons, List.not_mem_nil, or_false, forall_eq_or_imp,
    forall_eq, Abi.fitsField, decide_eq_true_eq] at fits
  obtain ⟨-, nonce, -, -, -, -, -, maxFee, maxPriorityFee, -⟩ := fits
  have until' : Abi.fitsTime range.validUntil = true := by
    have := range.until_lt
    simp [Abi.fitsTime]
    omega
  have after : Abi.fitsTime range.validAfter = true := by
    have := range.after_lt
    simp [Abi.fitsTime]
    omega
  have members : (engine.signingOperation op range).fields.all Abi.fitsField = true ↔
      LimitsFit engine.limits := by
    simp only [UserOperation.fields, signingOperation, UserOperation.withGasLimits, List.all_cons,
      List.all_nil, Abi.fitsField, nonce, maxFee, maxPriorityFee, LimitsFit, Bool.and_eq_true,
      decide_eq_true_eq, decide_true, true_and, and_true]
    constructor
    · rintro ⟨call, verification, before⟩
      exact ⟨before, verification, call⟩
    · rintro ⟨before, verification, call⟩
      exact ⟨call, verification, before⟩
  rw [← members]
  constructor
  · intro fit
    exact ⟨_, if_pos ⟨fit, until', after⟩⟩
  · rintro ⟨data, made⟩
    by_contra misfit
    rw [Abi.HashCall.data?, if_neg fun fit => misfit fit.1] at made
    cases made

/-! ## One sponsorship of a run -/

section Runs

variable {calls : List (Engine × Call)} {accounts : AccountTable}
  {s : Traffic (Except Failure Reply)} {events : List Event} {engine : Engine} {raw : Json}
  {i : Nat}

/-- The store, the node and the key answered a call, and there was time to ask the node. -/
structure Answered (engine : Engine) (events : List Event) (i : Nat) : Prop where
  admitted : engine.client.deadline.verdict = .admitted
  served : ∀ x ∈ Event.history i events, x.fails = false

/-- What a sponsorship needs after its charge. -/
structure Signable (engine : Engine) (events : List Event) (i : Nat) : Prop where
  limits : LimitsFit engine.limits
  time : ∀ now ∈ (Event.history i events).filterMap Exchange.reading?, TimeFits now

/-- A sponsorship was charged once, what its operation can cost at most, and authorized. -/
def ChargedOnce (calls : List (Engine × Call)) (engine : Engine) (raw : Json)
    (events : List Event) (i : Nat) (outcome : Except Failure Reply) : Prop :=
  (∃ result, outcome = .ok (.authorized result)) ∧
    ∃ before e after op, events = before ++ e :: after ∧ e.call = i ∧
      UserOperation.read raw = .ok op ∧
      posting? calls (senderKey op) e = some (.charge (op.cost engine.limits)) ∧
      ∀ f ∈ before ++ after, f.call = i → f.commit? = none

/-- A call failed and left every record as it was. -/
def Unchanged (events : List Event) (i : Nat) (outcome : Except Failure Reply) : Prop :=
  (∃ e, outcome = .error e) ∧ ∀ f ∈ events, f.call = i → f.left = f.found

/-- No save of a call that was answered has failed. -/
theorem Answered.kept (answered : Answered engine events i) : KeptOnFailure events i := by
  rintro f member rfl a fault refused
  have served := answered.served f.exchange (Event.exchange_mem_history member)
  rw [refused] at served
  cases served

/-- After a charge only a limit or the time makes a sponsorship fail. -/
theorem not_unpaid (signable : Signable engine events i) (answered : Answered engine events i) :
    ¬Unpaid engine raw (Event.history i events) := by
  rintro ⟨op, early, late, read, told, unauthorized⟩
  have inside {x : Exchange} (member : x ∈ late) : x ∈ Event.history i events := by
    rw [told]
    exact List.mem_append_right early member
  cases unauthorized with
  | @outside now e within =>
    have read : now ∈ (Event.history i events).filterMap Exchange.reading? :=
      List.mem_filterMap.mpr ⟨⟨.clock, now⟩, inside (by simp), rfl⟩
    obtain ⟨range, fits⟩ := (timeFits_iff now).mp (signable.time now read)
    rw [within] at fits
    cases fits
  | @misfit now range within misfits =>
    obtain ⟨data, fits⟩ := (limitsFit_iff read range).mp signable.limits
    rw [misfits] at fits
    cases fits
  | late expired => exact expired answered.admitted
  | @silent now data answer nothing =>
    have fine := answered.served _ (inside (List.mem_cons_of_mem _ (List.mem_singleton_self _)))
    simp [Exchange.fails, nothing] at fine
  | unsigned =>
    have fine := answered.served _ (inside (List.mem_cons_of_mem _ (List.mem_cons_of_mem _
      (List.mem_singleton_self _))))
    cases fine

/-- What was authorized was signable. -/
theorem signable_of_completes {h : List Exchange} {result : Sponsorship}
    (completes : Completes engine (.sponsor raw) h (.authorized result)) :
    LimitsFit engine.limits ∧ ∀ now ∈ h.filterMap Exchange.reading?, TimeFits now := by
  obtain ⟨op, source, found, a, b, signing, read, charged, authorized, rfl⟩ :=
    Completes.of_authorized completes
  cases authorized with
  | @signed now range data answer n signature within fits number =>
    refine ⟨(limitsFit_iff read range).mpr ⟨data, fits⟩, fun y shown => ?_⟩
    obtain ⟨x, member, shown⟩ := List.mem_filterMap.mp shown
    rcases List.mem_append.mp member with inHold | inSigning
    · rcases mem_held inHold with inside | rfl | opening | rfl | rfl
      · cases inside
      · cases shown
      · rcases mem_opened.mp opening with rfl | rfl
        · cases shown
        · cases shown
      · cases shown
      · cases shown
    · simp only [List.mem_cons, List.not_mem_nil, or_false] at inSigning
      rcases inSigning with rfl | rfl | rfl
      · cases shown
        exact (timeFits_iff now).mpr ⟨range, within⟩
      · cases shown
      · cases shown

/-- If the store, the node and the key answer, a sponsorship is charged once and authorized, or
fails and leaves every record as it was, exactly if it is signable in case it was charged. -/
theorem chargedOrUnchanged_iff (run : (traffic calls accounts).Run events s)
    (named : calls[i]? = some (engine, .sponsor raw)) {outcome : Except Failure Reply}
    (done : s.programs[i]? = some (.done outcome)) (answered : Answered engine events i) :
    (ChargedOnce calls engine raw events i outcome ∨ Unchanged events i outcome) ↔
      (Commits events i → Signable engine events i) := by
  constructor
  · rintro (⟨⟨result, rfl⟩, -⟩ | ⟨-, unchanged⟩) ⟨e, member, own, wrote⟩
    · -- What was authorized was signed, and so could be.
      have completes := run.ended (started_traffic named) (follows_serve engine _) done
      obtain ⟨limits, time⟩ := signable_of_completes completes
      exact ⟨limits, time⟩
    · obtain ⟨a, wrote⟩ := Option.isSome_iff_exists.mp wrote
      have same := unchanged e member own
      have saves := Event.saves_of_commit? wrote
      simp [Event.commit?, saves, same] at wrote
  · intro signable
    cases outcome with
    | ok reply =>
      have completes := run.ended (started_traffic named) (follows_serve engine _) done
      have authorized :
          ∃ result, (.ok reply : Except Failure Reply) = .ok (.authorized result) := by
        generalize Event.history i events = h at completes
        cases completes with
        | authorized => exact ⟨_, rfl⟩
      exact .inl ⟨authorized, charge_of_reply run named done⟩
    | error e =>
      have failed := run.ended (started_traffic named) (follows_serve_fails engine raw) done e rfl
      have untouched : ¬Commits events i := by
        rcases failed with unsaved | unpaid
        · exact not_commits_of_unsaved answered.kept unsaved
        · exact fun commits => not_unpaid (signable commits) answered unpaid
      exact .inr ⟨⟨e, rfl⟩, left_of_not_commits run untouched⟩

end Runs

instance (now : Instant) : Decidable (TimeFits now) := inferInstanceAs (Decidable (_ ∧ _))

instance (limits : GasLimits) : Decidable (LimitsFit limits) :=
  inferInstanceAs (Decidable (_ ∧ _ ∧ _))

/-- The failure with which a call has ended. -/
def failure? (s : Traffic (Except Failure Reply)) (call : Nat) : Option Failure :=
  match s.programs[call]? with
  | some (.done (.error e)) => some e
  | _ => none

theorem done_of_failure? {s : Traffic (Except Failure Reply)} {call : Nat} {e : Failure}
    (given : failure? s call = some e) : s.programs[call]? = some (.done (.error e)) := by
  unfold failure? at given
  split at given
  · cases given
    assumption
  · cases given

/-- An operation of the zero address that pays one for each unit of gas. -/
def plainOperation : Json :=
  .object
    [("sender", .text Address.zero.lower), ("nonce", .int 0), ("callData", .text "0x"),
     ("maxFeePerGas", .int 1), ("maxPriorityFeePerGas", .int 0)]

/-- An allowance of 10^78 for the zero address. -/
def richRow : Row :=
  { address := Address.zero.lower, enabled := true, remainingGas := '1' :: List.replicate 78 '0',
    usedGas := "0", lastRequest := none, vipToken := "-1", version := 1 }

/-- A sponsorship under the given limits, alone over a table of that allowance. -/
def alone (limits : GasLimits) :
    List (Engine × Call) × List Event × Traffic (Except Failure Reply) :=
  let calls : List (Engine × Call) := [({ small none with limits }, .sponsor plainOperation)]
  let turn : Traffic.Turn :=
    { call := 0, now := 1714564800000000, node := .ok (Bytes.zeros 32), signature := some .empty }
  (calls, (traffic calls [richRow]).play (List.replicate 8 turn))

/-- Limits that fit a word are charged and authorized. -/
theorem chargedOrUnchanged_iff_small :
    let run := alone ⟨1, 2, 3⟩
    Answered (small none) run.2.1 0 ∧ Commits run.2.1 0 ∧ ∃ outcome,
      run.2.2.programs[0]? = some (.done outcome) ∧
        (ChargedOnce run.1 (small none) plainOperation run.2.1 0 outcome ∨
          Unchanged run.2.1 0 outcome) := by
  intro run
  have played : (traffic run.1 [richRow]).Run run.2.1 run.2.2 := Traffic.run_play _ _
  have named : run.1[0]? = some (small none, .sponsor plainOperation) := rfl
  have answered : Answered (small none) run.2.1 0 := ⟨rfl, by decide +kernel⟩
  have signable : Signable (small none) run.2.1 0 := ⟨by decide +kernel, by decide +kernel⟩
  have commits : Commits run.2.1 0 := by
    unfold Commits
    decide +kernel
  have given : (sponsorship? run.2.2 0).isSome = true := by decide +kernel
  obtain ⟨result, given⟩ := Option.isSome_iff_exists.mp given
  have done := done_of_sponsorship? given
  exact ⟨answered, commits, _, done,
    (chargedOrUnchanged_iff played named done answered).mpr fun _ => signable⟩

/-- A limit of 2^256 is charged, and the sponsorship fails. -/
theorem not_chargedOrUnchanged_wide :
    let limits : GasLimits := ⟨2 ^ 256, 0, 0⟩
    let engine := { small none with limits }
    let run := alone limits
    Answered engine run.2.1 0 ∧ ∃ outcome, run.2.2.programs[0]? = some (.done outcome) ∧
      ¬(ChargedOnce run.1 engine plainOperation run.2.1 0 outcome ∨
        Unchanged run.2.1 0 outcome) := by
  intro limits engine run
  have answered : Answered engine run.2.1 0 := ⟨rfl, by decide +kernel⟩
  have written : ∃ f ∈ run.2.1, f.call = 0 ∧ f.left ≠ f.found := by decide +kernel
  have given : (failure? run.2.2 0).isSome = true := by decide +kernel
  obtain ⟨e, given⟩ := Option.isSome_iff_exists.mp given
  refine ⟨answered, _, done_of_failure? given, ?_⟩
  rintro (⟨⟨result, authorized⟩, -⟩ | ⟨-, unchanged⟩)
  · cases authorized
  · obtain ⟨f, member, own, moved⟩ := written
    exact moved (unchanged f member own)

end Engine

end Paymaster

import Paymaster.Proofs.Engine.Outcomes
import Paymaster.Proofs.Ledger.Dates
import Paymaster.Proofs.Number.Seconds
import Paymaster.Proofs.Text.Spelling
import Paymaster.Service.Methods

/-!
# Codes of refusals

The engine fails with a coded error whose code is one of six (`Failure.Stable`), as long as
clocks show usual instants, windows are days and limits fit a word: no part of a call, be it the
reading of an operation, the look-ups, the window of an account, the arithmetic of a charge,
the save, the question for a token, the time range, the hash or the signature, ends in another
way, whatever the store, the node and the locks answer. Each part is an action under the terms
of usual dates (`Engine.Coded`).
-/

namespace Paymaster

/-- The codes of refusals: those of invalid parameters and of internal errors, and those of the
service's own. -/
def RpcError.stableCodes : List Int :=
  [-32602, -32603, -32001, -32002, -32003, -32004]

/-- A failure that is meant for the caller and has a stable code. -/
def Failure.Stable (failure : Failure) : Prop :=
  ∃ e : RpcError, failure = .rpc e ∧ e.code ∈ RpcError.stableCodes

theorem Failure.stable_plain {kind : RpcError.Kind} (known : kind.code ∈ RpcError.stableCodes) :
    (Failure.plain kind).Stable :=
  ⟨_, rfl, known⟩

theorem Failure.stable_because {kind : RpcError.Kind} (known : kind.code ∈ RpcError.stableCodes)
    (reason : Text) : (Failure.because kind reason).Stable :=
  ⟨_, rfl, known⟩

namespace Engine

variable {α : Type}

/-- An action that is told only usual dates saves only such dates, and if it fails, then with a
stable code. -/
abbrev Coded (ends : α → Prop) (x : Action α) : Prop :=
  x.Keeps .inTime Failure.Stable ends

/-- An engine with a window of a day and limits that fit a word. -/
structure Regular (engine : Engine) : Prop where
  window : engine.tiers.window = .day
  limits : LimitsFit engine.limits

variable (engine : Engine)

/-! ## The store -/

theorem stable_lookupFailure (fault : StoreFault) : (lookupFailure fault).Stable := by
  unfold lookupFailure
  split
  · exact Failure.stable_because (by decide) _
  · exact Failure.stable_plain (by decide)

theorem stable_saveFailure (fault : StoreFault) : (saveFailure fault).Stable := by
  unfold saveFailure
  split
  · exact Failure.stable_because (by decide) _
  · exact Failure.stable_because (by decide) _
  · exact Failure.stable_plain (by decide)

/-- What follows the deadline of a call of the store. -/
theorem coded_checkDeadline {failure : StoreFault → Failure}
    (stable : ∀ fault, (failure fault).Stable) :
    Coded (fun _ => True) (Action.ofExcept (engine.checkDeadline.mapError failure)) := by
  refine Action.keeps_ofExcept ?_
  cases engine.checkDeadline with
  | error fault => exact stable fault
  | ok u => trivial

theorem coded_findAccount (address : Text) :
    Coded (fun account? => ∀ a, account? = some a → a.Dated) (engine.findAccount address) := by
  refine Action.keeps_bind ((engine.coded_checkDeadline stable_lookupFailure).mono fun _ _ => ?_)
  refine Action.keeps_bind (Action.keeps_request trivial fun answer told => ?_)
  cases answer with
  | error fault => exact stable_lookupFailure fault
  | ok account? => exact fun a found => told.2 a (congrArg Except.ok found)

theorem coded_findHolder (token : Int) :
    Coded (fun account? => ∀ a, account? = some a → a.Dated) (engine.findHolder token) := by
  refine Action.keeps_bind ((engine.coded_checkDeadline stable_lookupFailure).mono fun _ _ => ?_)
  refine Action.keeps_bind (Action.keeps_request trivial fun answer told => ?_)
  cases answer with
  | error fault => exact stable_lookupFailure fault
  | ok account? => exact fun a found => told.2 a (congrArg Except.ok found)

theorem coded_saveAccount {account : Account} (dated : account.Dated) :
    Coded (fun _ => True) (engine.saveAccount account) := by
  refine Action.keeps_bind ((engine.coded_checkDeadline stable_saveFailure).mono fun _ _ => ?_)
  refine Action.keeps_bind (Action.keeps_request dated fun answer _ => ?_)
  cases answer with
  | error fault => exact stable_saveFailure fault
  | ok b => trivial

/-! ## The chain -/

/-- An action that fails only with a failure of the chain. -/
abbrev Chained (x : Action α) : Prop :=
  x.Keeps .inTime (fun e => ∃ fault, e = .chain fault) fun _ => True

theorem chained_callWord (client : ChainClient) (function : Text) (contract : Address)
    (data : Bytes) : Chained (client.callWord function contract data) := by
  unfold ChainClient.callWord
  refine Action.keeps_bind (Action.keeps_ofExcept ?_)
  unfold ChainClient.checkDeadline
  split
  · refine Action.keeps_bind (Action.keeps_request trivial fun answer _ => ?_)
    rcases answer with (_ | _) | answer
    · exact ⟨_, rfl⟩
    · exact ⟨_, rfl⟩
    · cases word : ChainClient.word? answer with
      | none =>
        simp only [word]
        exact Action.keeps_throw ⟨_, rfl⟩
      | some n =>
        simp only [word]
        exact Action.keeps_pure trivial
  · exact ⟨_, rfl⟩
  · exact ⟨_, rfl⟩

theorem coded_tokenOf {key : Text} {x : Address} (denotes : Address.read key = .ok x) :
    Coded (fun _ => True) (engine.tokenOf key) := by
  refine (Program.keeps_map tokenOrNone _).mpr ?_
  have chained : Chained (engine.client.firstToken key) := by
    unfold ChainClient.firstToken
    cases engine.client.vip with
    | none => exact Action.keeps_pure trivial
    | some contract =>
      simp only [denotes]
      exact Action.keeps_bind ((chained_callWord _ _ _ _).mono fun _ _ => trivial)
  refine Program.Keeps.mono chained fun outcome ended => ?_
  cases outcome with
  | ok token? => trivial
  | error e =>
    obtain ⟨fault, rfl⟩ := ended
    trivial

theorem chained_signHash (client : ChainClient) (hash : Bytes) :
    Chained (client.signHash hash) := by
  unfold ChainClient.signHash
  refine Action.keeps_bind (Action.keeps_request trivial fun answer _ => ?_)
  cases answer with
  | none => exact ⟨_, rfl⟩
  | some signature => trivial

theorem timeFits_of_usual {now : Int} (usual : Instant.Usual now) : TimeFits now := by
  obtain ⟨late, early⟩ := usual
  have latest : now ≤ 253402300799999999 - 365 * 86400000000 := early
  obtain ⟨after, before⟩ := Instant.unixSeconds_le late (early.trans (by decide))
  have seconds : now / Instant.second = now / 1000000 := rfl
  have day : validitySeconds = 86400 := rfl
  have bound : (Abi.timeBound : Int) = 281474976710656 := by decide
  exact ⟨after, by omega⟩

/-- An operation that was read is signed, or there is a failure of the chain that is hidden. -/
theorem coded_authorize {engine : Engine} (regular : engine.Regular) {raw : Json}
    {op : UserOperation} (read : UserOperation.read raw = .ok op) :
    Coded (fun _ => True) (engine.authorize op) := by
  unfold authorize
  refine Action.keeps_bind (Action.keeps_request trivial fun now told => ?_)
  obtain ⟨range, within⟩ := (timeFits_iff now).mp (timeFits_of_usual told.1)
  obtain ⟨data, fits⟩ := (limitsFit_iff read range).mp regular.limits
  rw [within]
  have chained : Chained (do
      let hash ← engine.client.operationHash (engine.signingOperation op range)
        range.validUntil range.validAfter
      engine.client.signHash hash) := by
    refine Action.keeps_bind ?_
    unfold ChainClient.operationHash
    simp only [fits]
    refine Action.keeps_bind ((chained_callWord _ _ _ _).mono fun n _ => ?_)
    exact chained_signHash _ _
  refine Action.keeps_bind (Action.keeps_ofExcept ?_)
  refine Action.keeps_bind ((Program.keeps_map hideChainFault _).mpr ?_)
  refine Program.Keeps.mono chained fun outcome ended => ?_
  cases outcome with
  | ok signature => trivial
  | error e =>
    obtain ⟨fault, rfl⟩ := ended
    exact Failure.stable_plain (by decide)

/-! ## Inside the lock -/

theorem coded_refuseWithin {engine : Engine} (regular : engine.Regular) {account : Account}
    (dated : account.Dated) (now : Instant) (refusal : RpcError)
    (frequent : refusal.code = -32003) :
    Action.Ends Failure.Stable (fun _ => True)
      (refuseWithin engine.tiers.window now account refusal) := by
  have forward : 0 ≤ engine.tiers.window.micros := by rw [regular.window]; decide
  have short : engine.tiers.window.micros ≤ Instant.day := by rw [regular.window]; decide
  obtain ⟨limited, verdict⟩ := account.rateLimited_of_dated dated now forward short
  unfold refuseWithin
  rw [verdict]
  cases limited with
  | true => exact ⟨_, rfl, by rw [frequent]; decide⟩
  | false => trivial

theorem coded_refuseDisabled (account : Account) (address : Text) :
    Action.Ends Failure.Stable (fun _ => True) (refuseDisabled account address) := by
  unfold refuseDisabled
  split
  · trivial
  · exact Failure.stable_because (by decide) _

theorem coded_regularAllowance {engine : Engine} (regular : engine.Regular)
    {account? : Option Account} (dated : ∀ a, account? = some a → a.Dated) (key : Text)
    (now : Instant) : Action.Ends Failure.Stable (fun _ => True)
      (regularAllowance engine.tiers account? key now) := by
  cases account? with
  | none => trivial
  | some account =>
    have free := coded_refuseWithin regular (dated account rfl) now
      (.because .frequentRequest key) rfl
    exact Action.ends_bind (free.mono fun _ _ =>
      Action.ends_bind ((coded_refuseDisabled account key).mono fun _ _ => trivial))

theorem coded_tokenAllowance {engine : Engine} (regular : engine.Regular)
    {holder? : Option Account} (dated : ∀ a, holder? = some a → a.Dated) (key : Text)
    (now : Instant) : Action.Ends Failure.Stable (fun _ => True)
      (tokenAllowance engine.tiers holder? key now) := by
  cases holder? with
  | none => trivial
  | some holder =>
    have free := coded_refuseWithin regular (dated holder rfl) now (tokenRefusal key) rfl
    exact Action.ends_bind (free.mono fun _ _ => trivial)

/-- A grant at a usual instant, the last step of which is its save. -/
theorem coded_save {now : Int} (usual : Instant.Usual now) (account? : Option Account)
    (key : Text) (allowance : Nat) (token? : Option Nat) :
    Coded (fun _ => True) (do
      let _ ← engine.saveAccount (granted account? key allowance now token?)) := by
  have dated : (granted account? key allowance now token?).Dated := by
    intro t time
    cases time
    exact usual
  exact Action.keeps_bind ((engine.coded_saveAccount dated).mono fun _ _ => trivial)

theorem coded_grant {engine : Engine} (regular : engine.Regular) {key : Text} {x : Address}
    (denotes : Address.read key = .ok x) : Coded (fun _ => True) (engine.grant key) := by
  unfold grant
  refine Action.keeps_bind ((engine.coded_findAccount key).mono fun account? dated => ?_)
  refine Action.keeps_bind ((engine.coded_tokenOf denotes).mono fun token? _ => ?_)
  refine Action.keeps_bind (Action.keeps_request trivial fun now told => ?_)
  have save := engine.coded_save told.1 account? key
  cases token? with
  | none =>
    have allowed := coded_regularAllowance regular dated key now
    exact Action.keeps_bind (Action.keeps_ofExcept (allowed.mono fun _ _ => save _ _))
  | some token =>
    have onward : Coded (fun _ => True) (do
        let holder? ← engine.findHolder token
        let allowance ← Action.ofExcept (tokenAllowance engine.tiers holder? key now)
        let _ ← engine.saveAccount (granted account? key allowance now (some token))) := by
      refine Action.keeps_bind ((engine.coded_findHolder token).mono fun holder? held => ?_)
      have allowed := coded_tokenAllowance regular held key now
      exact Action.keeps_bind (Action.keeps_ofExcept (allowed.mono fun _ _ => save _ _))
    cases account? with
    | none => exact onward
    | some account =>
      exact Action.keeps_bind (Action.keeps_ofExcept
        ((coded_refuseDisabled account key).mono fun _ _ => onward))

theorem coded_charge (key : Text) (cost : Nat) :
    Coded (fun _ => True) (engine.charge key cost) := by
  unfold charge
  refine Action.keeps_bind ((engine.coded_findAccount key).mono fun account? dated => ?_)
  cases charge : charged? account? cost with
  | none => exact Failure.stable_plain (by decide)
  | some account =>
    obtain ⟨old, rfl, -, -, rfl⟩ := charged?_eq_some charge
    refine Action.keeps_bind ((engine.coded_saveAccount ?_).mono fun _ _ => trivial)
    exact dated old rfl

/-! ## Operations -/

theorem coded_hold (key : Text) {body : Action Unit} (coded : Coded (fun _ => True) body) :
    Coded (fun _ => True) (Action.hold engine.locks key body) := by
  refine Action.keeps_hold trivial trivial (fun fault => ?_) coded
  cases fault with
  | busy => exact Failure.stable_because (by decide) _
  | unavailable => exact Failure.stable_because (by decide) _

theorem coded_requestGas {engine : Engine} (regular : engine.Regular) (address : Json) :
    Coded (fun _ => True) (engine.requestGas address) := by
  refine Action.keeps_bind (Action.keeps_ofExcept ?_)
  cases given : addressKey address with
  | error e =>
    unfold addressKey at given
    repeat' split at given
    all_goals cases given
    all_goals exact Failure.stable_because (by decide) _
  | ok key =>
    obtain ⟨t, x, -, -, rfl⟩ := addressKey_eq_ok.mp given
    have denotes : Address.read (x.key t.isMarked) = .ok x := by simp [Address.read]
    exact engine.coded_hold _ (coded_grant regular denotes)

theorem stable_of_read {raw : Json} {e : RpcError} (refused : UserOperation.read raw = .error e) :
    (Failure.rpc e).Stable := by
  have defects (d : List UserOperation.Defect) :
      (Failure.rpc (UserOperation.defectsError d)).Stable :=
    Failure.stable_because (by decide) _
  unfold UserOperation.read at refused
  split at refused
  · rename_i members
    cases made : UserOperation.ofMembers members with
    | ok op =>
      rw [made] at refused
      cases refused
    | error d =>
      rw [made] at refused
      cases refused
      exact defects d
  · cases refused
    exact defects _

theorem coded_sponsor {engine : Engine} (regular : engine.Regular) (raw : Json) :
    Coded (fun _ => True) (engine.sponsor raw) := by
  refine Action.keeps_bind (Action.keeps_ofExcept ?_)
  cases read : UserOperation.read raw with
  | error e => exact stable_of_read read
  | ok op =>
    refine Action.keeps_bind ((engine.coded_hold _ (engine.coded_charge _ _)).mono fun _ _ => ?_)
    exact coded_authorize regular read

theorem coded_balance (address : Text) : Coded (fun _ => True) (engine.balance address) :=
  Action.keeps_bind ((engine.coded_findAccount address.lower).mono fun _ _ => trivial)

end Engine

end Paymaster

import Paymaster.Engine.Grant
import Paymaster.Engine.Sponsor
import Paymaster.Proofs.Program.History

/-!
# What the engine asks of its surroundings

One rule for each of the calls of which the operations of the engine are made: the look-ups,
the save and the question for a token. A rule says which conditions on histories hold of the
call (`Program.Follows`): what it may have asked, and with which result it ends. No failure
but that of a stale save is the conflict of two writers (`Engine.Harmless`).
-/

namespace Paymaster

namespace Engine

/-! ## Conflicts -/

/-- The failure of a call whose save lost against another writer. -/
def conflict : Failure :=
  .because .internal "concurrent account update"

/-- A failure that is no conflict. -/
def Harmless (e : Failure) : Prop :=
  e ≠ conflict

/-- Errors of other kinds, or with other data, are no conflicts. -/
theorem harmless_rpc {e : RpcError} (other : e.kind ≠ .internal ∨
    e.data ≠ .text "concurrent account update") : Harmless (.rpc e) := by
  intro same
  cases same
  rcases other with kind | data
  · exact kind rfl
  · exact data rfl

theorem harmless_because {kind : RpcError.Kind} {reason : Text}
    (other : reason ≠ ("concurrent account update" : Text)) : Harmless (.because kind reason) := by
  refine harmless_rpc (.inr fun same => other ?_)
  cases same
  rfl

theorem harmless_plain (kind : RpcError.Kind) : Harmless (.plain kind) := by
  refine harmless_rpc (.inr fun same => ?_)
  cases same

theorem harmless_lookupFailure (fault : StoreFault) : Harmless (lookupFailure fault) := by
  unfold lookupFailure
  split
  · exact harmless_because (by decide)
  · exact harmless_plain _

theorem harmless_saveFailure {fault : StoreFault} (fresh : ∀ detail, fault ≠ .stale detail) :
    Harmless (saveFailure fault) := by
  unfold saveFailure
  split
  · exact harmless_because (by decide)
  · exact absurd rfl (fresh _)
  · exact harmless_plain _

theorem harmless_lockFault (fault : LockFault) : Harmless (.rpc fault.toError) := by
  cases fault with
  | busy => exact harmless_because (by decide)
  | unavailable => exact harmless_because (by decide)

theorem harmless_address (fault : Address.Fault) : Harmless (.address fault) :=
  Failure.noConfusion

theorem harmless_abiMismatch (call : Abi.HashCall) : Harmless (.abiMismatch call) :=
  Failure.noConfusion

theorem harmless_rangeAt {now : Instant} {e : Failure} (outside : rangeAt now = .error e) :
    Harmless e := by
  unfold rangeAt at outside
  split at outside
  split at outside
  · cases outside
  · cases outside
    exact Failure.noConfusion

/-! ## The store -/

section Rules

variable {asks : List Exchange → Request → Prop} (engine : Engine)

/-- A look-up of an account asks the store once, or fails before it. -/
theorem follows_findAccount {ends : List Exchange → Except Failure (Option Account) → Prop}
    {address : Text} (asked : asks [] (.findAccount address))
    (found : ∀ account?, ends [⟨.findAccount address, .ok account?⟩] (.ok account?))
    (fails : ∀ h e, Harmless e → ends h (.error e)) :
    (engine.findAccount address).run.Follows asks ends := by
  unfold findAccount
  rw [Action.follows_bind]
  cases engine.checkDeadline with
  | error fault => exact fails [] _ (harmless_lookupFailure fault)
  | ok u =>
    refine ⟨asked, fun answer => ?_⟩
    cases answer with
    | ok account? => exact found account?
    | error fault => exact fails _ _ (harmless_lookupFailure fault)

theorem follows_findHolder {ends : List Exchange → Except Failure (Option Account) → Prop}
    {token : Int} (asked : asks [] (.findHolder token))
    (found : ∀ account?, ends [⟨.findHolder token, .ok account?⟩] (.ok account?))
    (fails : ∀ h e, Harmless e → ends h (.error e)) :
    (engine.findHolder token).run.Follows asks ends := by
  unfold findHolder
  rw [Action.follows_bind]
  cases engine.checkDeadline with
  | error fault => exact fails [] _ (harmless_lookupFailure fault)
  | ok u =>
    refine ⟨asked, fun answer => ?_⟩
    cases answer with
    | ok account? => exact found account?
    | error fault => exact fails _ _ (harmless_lookupFailure fault)

/-- No save was answered. -/
def Unsaved (h : List Exchange) : Prop :=
  ∀ a b, (⟨.saveAccount a, .ok b⟩ : Exchange) ∉ h

theorem unsaved_nil : Unsaved [] :=
  fun _ _ => List.not_mem_nil

theorem unsaved_refused (account : Account) (fault : StoreFault) :
    Unsaved [⟨.saveAccount account, .error fault⟩] := by
  intro a b member
  cases List.mem_singleton.mp member

/-- A save asks the store once, or fails before it; it fails for a conflict only if the store
says so, and never after an answer. -/
theorem follows_saveAccount {ends : List Exchange → Except Failure Account → Prop}
    {account : Account} (asked : asks [] (.saveAccount account))
    (saved : ∀ b, ends [⟨.saveAccount account, .ok b⟩] (.ok b))
    (stale : ∀ detail, ends [⟨.saveAccount account, .error (.stale detail)⟩] (.error conflict))
    (fails : ∀ h e, Harmless e → Unsaved h → ends h (.error e)) :
    (engine.saveAccount account).run.Follows asks ends := by
  unfold saveAccount
  rw [Action.follows_bind]
  have early : ∀ fault, engine.checkDeadline = .error fault → ∀ detail, fault ≠ .stale detail := by
    intro fault expired detail
    unfold checkDeadline at expired
    split at expired
    · cases expired
    · cases expired
      exact StoreFault.noConfusion
    · cases expired
      exact StoreFault.noConfusion
  cases verdict : engine.checkDeadline with
  | error fault => exact fails [] _ (harmless_saveFailure (early fault verdict)) unsaved_nil
  | ok u =>
    refine ⟨asked, fun answer => ?_⟩
    cases answer with
    | ok b => exact saved b
    | error fault =>
      by_cases lost : ∃ detail, fault = .stale detail
      · obtain ⟨detail, rfl⟩ := lost
        exact stale detail
      · exact fails _ _ (harmless_saveFailure fun detail same => lost ⟨detail, same⟩)
          (unsaved_refused account fault)

/-! ## The node -/

/-- The number that an answer of the node tells; a failure or a short answer tells none. -/
def told : Except NodeFault Bytes → Option Nat
  | .ok answer => ChainClient.word? answer
  | .error _ => none

/-- A call of a contract asks the node at most once, and not at all if the time for the call is
up; it ends with the number that the node told, or with a failure of the chain. -/
theorem follows_callWord {ends : List Exchange → Except Failure Nat → Prop}
    (client : ChainClient) {function : Text} {contract : Address} {data : Bytes}
    (asked : asks [] (.callContract contract data))
    (early : client.deadline.verdict ≠ .admitted → ∀ fault, ends [] (.error (.chain fault)))
    (number : ∀ answer n, told answer = some n →
      ends [⟨.callContract contract data, answer⟩] (.ok n))
    (fails : ∀ answer fault, told answer = none →
      ends [⟨.callContract contract data, answer⟩] (.error (.chain fault))) :
    (client.callWord function contract data).run.Follows asks ends := by
  unfold ChainClient.callWord
  rw [Action.follows_bind]
  cases verdict : client.checkDeadline function with
  | error e =>
    unfold ChainClient.checkDeadline at verdict
    split at verdict
    · cases verdict
    · rename_i expired
      cases verdict
      exact early (by simp [expired]) _
    · rename_i unreadable
      cases verdict
      exact early (by simp [unreadable]) _
  | ok u =>
    rw [Action.follows_ofExcept, Action.Onward, Action.follows_bind]
    refine (Action.follows_request _).mpr ⟨asked, fun answer => ?_⟩
    cases answer with
    | error fault =>
      cases fault with
      | failed => exact fails (.error .failed) _ rfl
      | timedOut => exact fails (.error .timedOut) _ rfl
    | ok answer =>
      cases word : ChainClient.word? answer with
      | none =>
        simp only [Action.Onward, word]
        exact fails (.ok answer) _ word
      | some n =>
        simp only [Action.Onward, word]
        exact number (.ok answer) n word

/-- What was asked of the node, and which token the node reported for an address: nothing is
asked without a token contract or when the time for the call is up. -/
inductive Reported (engine : Engine) (address : Text) : List Exchange → Option Nat → Prop
  | unasked : Reported engine address [] none
  | told {contract owner : Address} (answer : Except NodeFault Bytes) :
    engine.client.vip = some contract → Address.read address = .ok owner →
    Reported engine address [⟨.callContract contract (Abi.firstTokenCall owner), answer⟩]
      (told answer)

/-- The question for a token asks the node at most once. -/
theorem follows_tokenOf {ends : List Exchange → Except Failure (Option Nat) → Prop}
    {address : Text} (asked : ∀ contract data, asks [] (.callContract contract data))
    (reported : ∀ h token?, Reported engine address h token? → ends h (.ok token?))
    (fails : ∀ h e, Harmless e → ends h (.error e)) :
    (engine.tokenOf address).run.Follows asks ends := by
  refine (Program.follows_map tokenOrNone _).mpr ?_
  unfold ChainClient.firstToken
  cases vip : engine.client.vip with
  | none => exact reported [] none .unasked
  | some contract =>
    cases owner : Address.read address with
    | error fault => exact fails [] _ (harmless_address fault)
    | ok owner' =>
      have answered (answer : Except NodeFault Bytes) (token? : Option Nat)
          (tells : told answer = token?) :
          ends [⟨.callContract contract (Abi.firstTokenCall owner'), answer⟩] (.ok token?) :=
        tells ▸ reported _ _ (.told answer vip owner)
      refine (Action.follows_bind _ _).mpr (follows_callWord _ (asked _ _) ?_ ?_ ?_)
      · exact fun _ fault => reported [] none .unasked
      · exact fun answer n number => answered answer (some n) number
      · exact fun answer fault nothing => answered answer none nothing

/-! ## The signature -/

/-- The hash of an operation asks the contract once, if every number fits its place and the
time for the call is not up. -/
theorem follows_operationHash {ends : List Exchange → Except Failure Bytes → Prop}
    (client : ChainClient) (call : Abi.HashCall)
    (asked : ∀ contract data, asks [] (.callContract contract data))
    (hashed : ∀ data answer n, call.data? = some data → told answer = some n →
      ends [⟨.callContract client.paymaster data, answer⟩] (.ok (Bytes.word n)))
    (misfit : call.data? = none → ends [] (.error (.abiMismatch call)))
    (early : client.deadline.verdict ≠ .admitted → ∀ fault, ends [] (.error (.chain fault)))
    (silent : ∀ data answer fault, told answer = none →
      ends [⟨.callContract client.paymaster data, answer⟩] (.error (.chain fault))) :
    (client.operationHash call.op call.validUntil call.validAfter).run.Follows asks ends := by
  unfold ChainClient.operationHash
  cases fits : call.data? with
  | none =>
    simp only [fits]
    exact misfit fits
  | some data =>
    simp only [fits]
    refine (Action.follows_bind _ _).mpr (follows_callWord client (asked _ _) ?_ ?_ ?_)
    · exact early
    · exact fun answer n number => hashed data answer n fits number
    · exact fun answer fault nothing => silent data answer fault nothing

/-- A signature asks the key once. -/
theorem follows_signHash {ends : List Exchange → Except Failure Signature → Prop}
    (client : ChainClient) {hash : Bytes} (asked : asks [] (.sign client.signer hash))
    (signed : ∀ signature, ends [⟨.sign client.signer hash, some signature⟩] (.ok signature))
    (unsigned : ∀ fault, ends [⟨.sign client.signer hash, none⟩] (.error (.chain fault))) :
    (client.signHash hash).run.Follows asks ends := by
  unfold ChainClient.signHash
  refine (Action.follows_bind _ _).mpr ((Action.follows_request _).mpr ⟨asked, fun answer => ?_⟩)
  cases answer with
  | none => exact unsigned _
  | some signature => exact signed signature

/-- The exchanges of an authorization that is given: the time, the hash of the operation that
is signed, and its signature. -/
inductive Authorized (engine : Engine) (op : UserOperation) :
    List Exchange → Sponsorship → Prop
  | signed {now : Instant} {range : TimeRange} {data : Bytes} {answer : Except NodeFault Bytes}
      {n : Nat} {signature : Signature} :
    rangeAt now = .ok range →
    Abi.HashCall.data? ⟨engine.signingOperation op range, range.validUntil, range.validAfter⟩
      = some data →
    told answer = some n →
    Authorized engine op
      [⟨.clock, now⟩, ⟨.callContract engine.client.paymaster data, answer⟩,
       ⟨.sign engine.client.signer (Bytes.word n), some signature⟩]
      (.ofData (paymasterData engine.client.paymaster range signature) engine.limits)

/-- The exchanges of an authorization that is not given: the time has no range, a number does
not fit its place, the time for the call is up, the node tells no number, or the key gives no
signature. -/
inductive Unauthorized (engine : Engine) (op : UserOperation) : List Exchange → Prop
  | outside {now : Instant} {e : Failure} :
    rangeAt now = .error e → Unauthorized engine op [⟨.clock, now⟩]
  | misfit {now : Instant} {range : TimeRange} :
    rangeAt now = .ok range →
    Abi.HashCall.data? ⟨engine.signingOperation op range, range.validUntil, range.validAfter⟩
      = none →
    Unauthorized engine op [⟨.clock, now⟩]
  | late {now : Instant} :
    engine.client.deadline.verdict ≠ .admitted → Unauthorized engine op [⟨.clock, now⟩]
  | silent {now : Instant} {data : Bytes} {answer : Except NodeFault Bytes} :
    told answer = none →
    Unauthorized engine op
      [⟨.clock, now⟩, ⟨.callContract engine.client.paymaster data, answer⟩]
  | unsigned {now : Instant} {data hash : Bytes} {answer : Except NodeFault Bytes} :
    Unauthorized engine op
      [⟨.clock, now⟩, ⟨.callContract engine.client.paymaster data, answer⟩,
       ⟨.sign engine.client.signer hash, none⟩]

/-- An operation is signed with three exchanges or not at all. -/
theorem follows_authorize {ends : List Exchange → Except Failure Sponsorship → Prop}
    {op : UserOperation}
    (asked : ∀ h r, r.concernsAccounts = false → r.concernsLocks = false →
      r.counts = false → asks h r)
    (authorized : ∀ h s, Authorized engine op h s → ends h (.ok s))
    (fails : ∀ h e, Harmless e → Unauthorized engine op h → ends h (.error e)) :
    (engine.authorize op).run.Follows asks ends := by
  unfold authorize
  refine (Action.follows_bind _ _).mpr
    ((Action.follows_request _).mpr ⟨asked _ _ rfl rfl rfl, fun now => ?_⟩)
  refine (Action.follows_bind _ _).mpr ((Action.follows_ofExcept _).mpr ?_)
  cases within : rangeAt now with
  | error e => exact fails _ e (harmless_rangeAt within) (.outside within)
  | ok range =>
    refine (Action.follows_bind _ _).mpr ((Program.follows_map hideChainFault _).mpr ?_)
    let call : Abi.HashCall :=
      ⟨engine.signingOperation op range, range.validUntil, range.validAfter⟩
    refine (Action.follows_bind _ _).mpr (follows_operationHash engine.client call
      (fun _ _ => asked _ _ rfl rfl rfl) ?_ ?_ ?_ ?_)
    · intro data answer n fits number
      rw [Action.Onward]
      refine follows_signHash engine.client ?_ ?_ ?_
      · exact asked _ _ rfl rfl rfl
      · exact fun signature => authorized _ _ (.signed within fits number)
      · exact fun fault => fails _ _ (harmless_plain .internal) .unsigned
    · exact fun none => fails _ _ (harmless_abiMismatch _) (.misfit within none)
    · exact fun late fault => fails _ _ (harmless_plain .internal) (.late late)
    · exact fun data answer fault nothing =>
        fails _ _ (harmless_plain .internal) (.silent nothing)

end Rules

end Engine

end Paymaster

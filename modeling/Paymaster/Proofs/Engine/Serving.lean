import Paymaster.Proofs.Engine.Writing
import Paymaster.Proofs.Text.Keys
import Paymaster.Service.Settings

/-!
# Served calls

Each call is served by an engine of its own, which takes its locks when it is made
(`Engine.serve`). `Engine.Asks` says what a call may ask after which answers: it looks its
account up once, inside its lock, and saves at most once. `Engine.Completes` lists all the
exchanges of a call that has a result. Every call keeps to both (`Engine.follows_serve`).
-/

namespace Paymaster.Engine

/-! ## Calls -/

/-- What a caller gets. -/
inductive Reply where
  | granted
  | authorized (s : Sponsorship)

/-- The key of the account that a call is about; none if the call denotes no account. -/
def Call.key? : Call → Option Text
  | .requestGas address => (addressKey address).toOption
  | .sponsor raw => (UserOperation.read raw).toOption.map senderKey

/-- A call of an engine. -/
def perform (engine : Engine) : Call → Action Reply
  | .requestGas address => do
    engine.requestGas address
    return .granted
  | .sponsor raw => return .authorized (← engine.sponsor raw)

/-- A call with an engine of its own: the engine takes its locks when it is made. -/
def serve (engine : Engine) (call : Call) : Action Reply := do
  let locks ← Action.request .joinLocks
  { engine with locks }.perform call

/-- A call with an engine that a service makes of its settings. -/
theorem perform_engine {settings : Settings} {engine : Engine}
    (tiers : settings.tiers = .ok engine.tiers) (client : settings.client = .ok engine.client)
    (limits : settings.limits = .ok engine.limits)
    (deadline : settings.storeDeadline = engine.storeDeadline) (call : Call) :
    (do let made ← settings.engine; made.perform call) = engine.serve call := by
  unfold Settings.engine serve
  rw [tiers, client, limits, deadline]
  rfl

theorem isKey_of_key? {call : Call} {key : Text} (keyed : call.key? = some key) : key.IsKey := by
  cases call with
  | requestGas address =>
    cases given : addressKey address with
    | error e =>
      rw [Call.key?, given] at keyed
      cases keyed
    | ok key' =>
      rw [Call.key?, given] at keyed
      cases keyed
      exact isKey_of_addressKey given
  | sponsor raw =>
    cases read : UserOperation.read raw with
    | error e =>
      rw [Call.key?, read] at keyed
      cases keyed
    | ok op =>
      rw [Call.key?, read] at keyed
      cases keyed
      exact isKey_senderKey read

/-! ## Exchanges -/

/-- The exchanges with which a call comes to hold its lock. -/
def opened (source : LockSource) (key : Text) : List Exchange :=
  [⟨.joinLocks, source⟩, ⟨.enterLock source key, .ok ()⟩]

theorem mem_opened {source : LockSource} {key : Text} {x : Exchange} :
    x ∈ opened source key ↔ x = ⟨.joinLocks, source⟩ ∨ x = ⟨.enterLock source key, .ok ()⟩ := by
  simp [opened]

/-- What a call may ask, from the making of its engine on. -/
def Asks (engine : Engine) (call : Call) (h : List Exchange) : Request → Prop
  | .joinLocks => h = []
  | .enterLock source key => h = [⟨.joinLocks, source⟩] ∧ call.key? = some key
  | .findAccount key => ∃ source, h = opened source key ∧ call.key? = some key
  | .saveAccount a => ∃ source key found mid,
    h = opened source key ++ ⟨.findAccount key, .ok found⟩ :: mid ∧ call.key? = some key ∧
      Writes engine key found call mid a
  | .leaveLock source key => ∃ mid, h = opened source key ++ mid ∧ call.key? = some key ∧
    ∀ x ∈ mid, x.request.concernsLocks = false
  | _ => True

/-- The exchanges of a hold in which an account was looked up and saved. -/
def held (source : LockSource) (key : Text) (found : Option Account) (mid : List Exchange)
    (a b : Account) : List Exchange :=
  opened source key ++ ⟨.findAccount key, .ok found⟩ :: mid ++
    [⟨.saveAccount a, .ok b⟩, ⟨.leaveLock source key, ()⟩]

theorem mem_held {source : LockSource} {key : Text} {found : Option Account}
    {mid : List Exchange} {a b : Account} {x : Exchange}
    (member : x ∈ held source key found mid a b) :
    x ∈ mid ∨ x = ⟨.saveAccount a, .ok b⟩ ∨ x ∈ opened source key ∨
      x = ⟨.findAccount key, .ok found⟩ ∨ x = ⟨.leaveLock source key, ()⟩ := by
  rw [held, List.mem_append, List.mem_append] at member
  rcases member with (opening | looked) | last
  · exact .inr (.inr (.inl opening))
  · rcases List.mem_cons.mp looked with here | inside
    · exact .inr (.inr (.inr (.inl here)))
    · exact .inl inside
  · rcases List.mem_cons.mp last with saved | last
    · exact .inr (.inl saved)
    · exact .inr (.inr (.inr (.inr (List.mem_singleton.mp last))))

/-- All exchanges of a call that has a result. -/
inductive Completes (engine : Engine) : Call → List Exchange → Reply → Prop
  | granted {address : Json} {source : LockSource} {key : Text} {found : Option Account}
      {mid : List Exchange} {a b : Account} :
    addressKey address = .ok key → Writes engine key found (.requestGas address) mid a →
    Completes engine (.requestGas address) (held source key found mid a b) .granted
  | authorized {raw : Json} {op : UserOperation} {source : LockSource}
      {found : Option Account} {a b : Account} {signing : List Exchange} {s : Sponsorship} :
    UserOperation.read raw = .ok op → charged? found (op.cost engine.limits) = some a →
    Authorized engine op signing s →
    Completes engine (.sponsor raw) (held source (senderKey op) found [] a b ++ signing)
      (.authorized s)

theorem Completes.of_authorized {engine : Engine} {raw : Json} {h : List Exchange}
    {s : Sponsorship} (completes : Completes engine (.sponsor raw) h (.authorized s)) :
    ∃ op source found a b signing, UserOperation.read raw = .ok op ∧
      charged? found (op.cost engine.limits) = some a ∧ Authorized engine op signing s ∧
      h = held source (senderKey op) found [] a b ++ signing := by
  cases completes with
  | authorized read charged authorized =>
    exact ⟨_, _, _, _, _, _, read, charged, authorized, rfl⟩

/-- A call that has a result has saved. -/
theorem Completes.saved {engine : Engine} {call : Call} {h : List Exchange} {reply : Reply}
    (completes : Completes engine call h reply) :
    ∃ before a b after, h = before ++ ⟨.saveAccount a, .ok b⟩ :: after := by
  cases completes with
  | granted given writes => exact ⟨_, _, _, [_], rfl⟩
  | @authorized raw op source found a b signing s read charged authorized =>
    exact ⟨_, a, b, ⟨.leaveLock source (senderKey op), ()⟩ :: signing, by
      rw [held, List.append_assoc]
      rfl⟩

/-- How a call may end. -/
def Ends (engine : Engine) (call : Call) (h : List Exchange) : Except Failure Reply → Prop
  | .ok reply => Completes engine call h reply
  | .error e => Lost h e

/-! ## The locks of an engine have no part in what it writes -/

section Locks

variable {engine : Engine} {source : LockSource}

theorem Reported.of_locks {key : Text} {asked : List Exchange} {token? : Option Nat}
    (reported : Reported { engine with locks := source } key asked token?) :
    Reported engine key asked token? := by
  cases reported with
  | unasked => exact .unasked
  | told answer vip owner => exact .told answer vip owner

theorem Writes.of_locks {key : Text} {found : Option Account} {call : Call}
    {mid : List Exchange} {a : Account}
    (writes : Writes { engine with locks := source } key found call mid a) :
    Writes engine key found call mid a := by
  cases writes with
  | charge read charged => exact .charge read charged
  | regular told allowed => exact .regular told.of_locks allowed
  | token told enabled allowed => exact .token told.of_locks enabled allowed

theorem Authorized.of_locks {op : UserOperation} {h : List Exchange} {s : Sponsorship}
    (authorized : Authorized { engine with locks := source } op h s) :
    Authorized engine op h s := by
  cases authorized with
  | signed within fits number => exact .signed within fits number

end Locks

/-! ## Every call -/

/-- A call inside its hold, seen from the making of the engine on. -/
theorem follows_locked (engine : Engine) {source : LockSource} {key : Text} {call : Call}
    {body : Action Unit} (keyed : call.key? = some key)
    (followed : body.run.Follows (AsksInside { engine with locks := source } key call)
      (EndsInside { engine with locks := source } key call)) :
    (Action.hold source key body).run.Follows
      (fun g => Asks engine call (⟨.joinLocks, source⟩ :: g))
      (fun g o => match o with
        | .ok _ => ∃ found mid a b,
          ⟨.joinLocks, source⟩ :: g = held source key found mid a b ∧
            Writes engine key found call mid a
        | .error e => Lost (⟨.joinLocks, source⟩ :: g) e) := by
  refine (Action.follows_hold _ _ _).mpr ⟨⟨rfl, keyed⟩, fun fault => ?_, ?_⟩
  · exact Lost.of_harmless _ (harmless_lockFault fault)
  · refine followed.visited.mono (fun h r allowed => ?_) fun h o ended => ?_
    · cases r with
      | findAccount address =>
        obtain ⟨rfl, rfl⟩ := allowed
        exact ⟨source, rfl, keyed⟩
      | saveAccount a =>
        obtain ⟨found, mid, rfl, writes⟩ := allowed
        exact ⟨source, key, found, mid, rfl, keyed, writes.of_locks⟩
      | joinLocks => exact allowed.elim
      | enterLock _ _ => exact allowed.elim
      | leaveLock _ _ => exact allowed.elim
      | _ => trivial
    · obtain ⟨ended, visited⟩ := ended
      refine ⟨⟨h, rfl, keyed, fun x member => ?_⟩, ?_⟩
      · obtain ⟨before, after, rfl⟩ := List.append_of_mem member
        have allowed := visited before x after rfl
        cases asked : x.request with
        | joinLocks => rw [asked] at allowed; exact allowed.elim
        | enterLock _ _ => rw [asked] at allowed; exact allowed.elim
        | leaveLock _ _ => rw [asked] at allowed; exact allowed.elim
        | _ => rfl
      · cases o with
        | ok u =>
          obtain ⟨found, mid, a, b, rfl, writes⟩ := ended
          exact ⟨found, mid, a, b, by simp [held, opened], writes.of_locks⟩
        | error e => exact Lost.around ended (opened source key) [_]

theorem harmless_addressKey {address : Json} {e : Failure}
    (refused : addressKey address = .error e) : Harmless e := by
  have invalid : Harmless addressKey.invalid := harmless_rpc (.inl RpcError.Kind.noConfusion)
  unfold addressKey at refused
  split at refused
  · split at refused
    · cases refused
    · cases refused
      exact invalid
  · cases refused
    exact invalid

theorem harmless_read {raw : Json} {e : Failure}
    (refused : (UserOperation.read raw).mapError Failure.rpc = .error e) : Harmless e := by
  have defects (d : List UserOperation.Defect) :
      Harmless (.rpc (UserOperation.defectsError d)) :=
    harmless_rpc (.inl RpcError.Kind.noConfusion)
  unfold UserOperation.read at refused
  split at refused
  · rename_i members
    cases parsed : UserOperation.ofMembers members with
    | error d =>
      rw [parsed] at refused
      cases refused
      exact defects d
    | ok op =>
      rw [parsed] at refused
      cases refused
  · cases refused
    exact defects _

theorem follows_requestGas (engine : Engine) (source : LockSource) (address : Json) :
    ({ engine with locks := source }.perform (.requestGas address)).run.Follows
      (fun g => Asks engine (.requestGas address) (⟨.joinLocks, source⟩ :: g))
      (fun g => Ends engine (.requestGas address) (⟨.joinLocks, source⟩ :: g)) := by
  refine (Action.follows_bind _ _).mpr ((Action.follows_bind _ _).mpr
    ((Action.follows_ofExcept _).mpr ?_))
  cases given : addressKey address with
  | error e => exact Lost.of_harmless _ (harmless_addressKey given)
  | ok key =>
    rw [Action.Onward]
    have keyed : Call.key? (.requestGas address) = some key := by
      rw [Call.key?, given]
      rfl
    refine (follows_locked engine keyed (follows_grant _ key address)).mono (fun h r => id) ?_
    intro h o ended
    cases o with
    | error e => exact ended
    | ok u =>
      obtain ⟨found, mid, a, b, same, writes⟩ := ended
      have completes : Completes engine (.requestGas address) (held source key found mid a b)
          .granted := .granted given writes
      rw [← same] at completes
      rw [Action.Onward]
      simpa [Ends] using completes

theorem follows_sponsor (engine : Engine) (source : LockSource) (raw : Json) :
    ({ engine with locks := source }.perform (.sponsor raw)).run.Follows
      (fun g => Asks engine (.sponsor raw) (⟨.joinLocks, source⟩ :: g))
      (fun g => Ends engine (.sponsor raw) (⟨.joinLocks, source⟩ :: g)) := by
  refine (Action.follows_bind _ _).mpr ((Action.follows_bind _ _).mpr
    ((Action.follows_ofExcept _).mpr ?_))
  cases given : (UserOperation.read raw).mapError Failure.rpc with
  | error e => exact Lost.of_harmless _ (harmless_read given)
  | ok op =>
    rw [Action.Onward]
    have read : UserOperation.read raw = .ok op := by
      cases parsed : UserOperation.read raw with
      | error e => rw [parsed] at given; cases given
      | ok op' => rw [parsed] at given; cases given; rfl
    have keyed : Call.key? (.sponsor raw) = some (senderKey op) := by
      rw [Call.key?, read]
      rfl
    refine (Action.follows_bind _ _).mpr
      ((follows_locked engine keyed (follows_charge _ (senderKey op) read)).mono
        (fun h r => id) ?_)
    intro h o ended
    cases o with
    | error e => exact ended
    | ok u =>
      obtain ⟨found, mid, a, b, same, writes⟩ := ended
      rw [Action.Onward]
      refine follows_authorize _ (fun g r ledger locks _ => ?_) (fun g s authorized => ?_)
        (fun g e harmless _ => Lost.of_harmless _ harmless)
      · cases r <;> trivial
      · cases writes with
        | charge read' charged =>
          rw [read] at read'
          cases read'
          have completes : Completes engine (.sponsor raw)
              (held source (senderKey op) found [] a b ++ g) (.authorized s) :=
            .authorized read charged authorized.of_locks
          rw [← same, List.cons_append] at completes
          rw [Action.Onward]
          simpa [Ends] using completes

/-- What every call asks and how it ends. -/
theorem follows_serve (engine : Engine) (call : Call) :
    (engine.serve call).run.Follows (Asks engine call) (Ends engine call) := by
  refine (Action.follows_bind _ _).mpr ((Action.follows_request _).mpr ⟨rfl, fun source => ?_⟩)
  cases call with
  | requestGas address => exact follows_requestGas engine source address
  | sponsor raw => exact follows_sponsor engine source raw

end Paymaster.Engine

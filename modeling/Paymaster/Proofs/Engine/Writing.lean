import Paymaster.Proofs.Engine.Allowance

/-!
# What calls write

A grant and a charge, each inside the lock of its account. What they save is told by what they
found and were told since (`Engine.Writes`), and they save at most once, at their end
(`Engine.follows_grant`, `Engine.follows_charge`).
-/

namespace Paymaster.Engine

/-- A call of the service that writes an account. -/
inductive Call where
  /-- A grant to the address that a value denotes. -/
  | requestGas (address : Json)
  /-- A sponsorship of the operation that a value denotes. -/
  | sponsor (op : Json)

/-! ## Inside the lock -/

/-- What a call writes when it found an account, or none, and was told something since: a
sponsorship charges the account at once; a grant asked for a token and the time before it, and
a grant through a token also for the account that was granted through it last. -/
inductive Writes (engine : Engine) (key : Text) (found : Option Account) :
    Call → List Exchange → Account → Prop
  | charge {raw : Json} {op : UserOperation} {account : Account} :
    UserOperation.read raw = .ok op → charged? found (op.cost engine.limits) = some account →
    Writes engine key found (.sponsor raw) [] account
  | regular {address : Json} {asked : List Exchange} {now : Instant} {allowance : Nat} :
    Reported engine key asked none →
    regularAllowance engine.tiers found key now = .ok allowance →
    Writes engine key found (.requestGas address) (asked ++ [⟨.clock, now⟩])
      (granted found key allowance now none)
  | token {address : Json} {asked : List Exchange} {token : Nat} {now : Instant}
      {holder? : Option Account} {allowance : Nat} :
    Reported engine key asked (some token) →
    (∀ account, found = some account → account.enabled = true) →
    tokenAllowance engine.tiers holder? key now = .ok allowance →
    Writes engine key found (.requestGas address)
      (asked ++ [⟨.clock, now⟩, ⟨.findHolder token, .ok holder?⟩])
      (granted found key allowance now (some token))

/-- What is written keeps the version that was found. -/
theorem Writes.version {engine : Engine} {key : Text} {found : Option Account} {call : Call}
    {mid : List Exchange} {a : Account} (writes : Writes engine key found call mid a) :
    a.version = (found.map Account.version).getD 0 := by
  cases writes with
  | charge read charged =>
    obtain ⟨old, rfl, -, -, rfl⟩ := charged?_eq_some charged
    rfl
  | regular => cases found <;> rfl
  | token => cases found <;> rfl

/-- What is written keeps its address. -/
theorem Writes.address {engine : Engine} {key : Text} {found : Option Account} {call : Call}
    {mid : List Exchange} {a : Account} (writes : Writes engine key found call mid a)
    (own : ∀ old, found = some old → old.address = key) : a.address = key := by
  cases writes with
  | charge read charged =>
    obtain ⟨old, rfl, -, -, rfl⟩ := charged?_eq_some charged
    exact own old rfl
  | regular =>
    cases found with
    | none => rfl
    | some old => exact own old rfl
  | token =>
    cases found with
    | none => rfl
    | some old => exact own old rfl

/-- Between the look-up and the save nothing is saved, and no lock is asked for. -/
theorem Writes.quiet {engine : Engine} {key : Text} {found : Option Account} {call : Call}
    {mid : List Exchange} {a : Account} (writes : Writes engine key found call mid a) :
    ∀ x ∈ mid, (∀ b, x.request ≠ .saveAccount b) ∧ x.request.concernsLocks = false := by
  have asked {h : List Exchange} {token? : Option Nat} (told : Reported engine key h token?) :
      ∀ x ∈ h, (∀ b, x.request ≠ .saveAccount b) ∧ x.request.concernsLocks = false := by
    cases told with
    | unasked => simp
    | told answer vip owner =>
      intro x member
      rw [List.mem_singleton] at member
      subst member
      exact ⟨fun b => Request.noConfusion, rfl⟩
  cases writes with
  | charge => simp
  | regular told allowed =>
    intro x member
    rcases List.mem_append.mp member with early | late
    · exact asked told x early
    · rw [List.mem_singleton] at late
      subst late
      exact ⟨fun b => Request.noConfusion, rfl⟩
  | token told enabled allowed =>
    intro x member
    rcases List.mem_append.mp member with early | late
    · exact asked told x early
    · simp only [List.mem_cons, List.not_mem_nil, or_false] at late
      rcases late with rfl | rfl
      · exact ⟨fun b => Request.noConfusion, rfl⟩
      · exact ⟨fun b => Request.noConfusion, rfl⟩

/-- What a call may ask while it holds its lock. -/
def AsksInside (engine : Engine) (key : Text) (call : Call) (h : List Exchange) :
    Request → Prop
  | .findAccount address => h = [] ∧ address = key
  | .saveAccount a =>
    ∃ found mid, h = ⟨.findAccount key, .ok found⟩ :: mid ∧ Writes engine key found call mid a
  | .joinLocks | .enterLock _ _ | .leaveLock _ _ => False
  | _ => True

/-- A failure for a conflict comes of a save that was refused as stale. -/
def Lost (h : List Exchange) (e : Failure) : Prop :=
  e = conflict →
    ∃ before a detail after, h = before ++ ⟨.saveAccount a, .error (.stale detail)⟩ :: after

theorem Lost.of_harmless (h : List Exchange) {e : Failure} (harmless : Harmless e) : Lost h e :=
  fun same => absurd same harmless

theorem Lost.around {h : List Exchange} {e : Failure} (lost : Lost h e)
    (early late : List Exchange) : Lost (early ++ h ++ late) e := by
  intro same
  obtain ⟨before, a, detail, after, rfl⟩ := lost same
  exact ⟨early ++ before, a, detail, after ++ late, by simp⟩

/-- How a call may end while it holds its lock: with a result only after its save was
answered. -/
def EndsInside (engine : Engine) (key : Text) (call : Call) (h : List Exchange) :
    Except Failure Unit → Prop
  | .ok _ => ∃ found mid a b,
    h = ⟨.findAccount key, .ok found⟩ :: mid ++ [⟨.saveAccount a, .ok b⟩] ∧
      Writes engine key found call mid a
  | .error e => Lost h e

/-- The end of every call inside its lock: one save. -/
theorem follows_lastSave (engine : Engine) {key : Text} {call : Call} {found : Option Account}
    {mid : List Exchange} {a : Account} (writes : Writes engine key found call mid a) :
    (do let _ ← engine.saveAccount a : Action Unit).run.Follows
      (fun g => AsksInside engine key call (⟨.findAccount key, .ok found⟩ :: mid ++ g))
      (fun g => EndsInside engine key call (⟨.findAccount key, .ok found⟩ :: mid ++ g)) := by
  refine (Action.follows_bind _ _).mpr (follows_saveAccount engine ?_ ?_ ?_ ?_)
  · exact ⟨found, mid, by simp, writes⟩
  · exact fun b => ⟨found, mid, a, b, rfl, writes⟩
  · exact fun detail _ => ⟨_, a, detail, [], rfl⟩
  · exact fun h e harmless _ => Lost.of_harmless _ harmless

/-- The rest of a grant through a token: it looks for the holder and saves at most once. -/
theorem follows_tokenGrant (engine : Engine) {key : Text} (address : Json)
    (found : Option Account) (now : Instant) {asked : List Exchange} {token : Nat}
    (reported : Reported engine key asked (some token))
    (enabled : ∀ account, found = some account → account.enabled = true) :
    (do
      let holder? ← engine.findHolder token
      let allowance ← Action.ofExcept (tokenAllowance engine.tiers holder? key now)
      let _ ← engine.saveAccount (granted found key allowance now (some token))
        : Action Unit).run.Follows
      (fun g => AsksInside engine key (.requestGas address)
        (⟨.findAccount key, .ok found⟩ :: asked ++ ⟨.clock, now⟩ :: g))
      (fun g => EndsInside engine key (.requestGas address)
        (⟨.findAccount key, .ok found⟩ :: asked ++ ⟨.clock, now⟩ :: g)) := by
  have failed (h : List Exchange) (e : Failure) (harmless : Harmless e) :
      EndsInside engine key (.requestGas address) h (.error e) := .of_harmless h harmless
  refine (Action.follows_bind _ _).mpr (follows_findHolder engine trivial ?_ ?_)
  · intro holder?
    refine (Action.follows_bind _ _).mpr ((Action.follows_ofExcept _).mpr ?_)
    cases allowed : tokenAllowance engine.tiers holder? key now with
    | error e => exact failed _ e (harmless_tokenAllowance allowed)
    | ok allowance =>
      have writes : Writes engine key found (.requestGas address) _ _ :=
        .token reported enabled allowed
      exact (follows_lastSave engine writes).mono (fun g r => by simp) (fun g o => by simp)
  · exact fun h e harmless => failed _ e harmless

/-- A grant looks its account up, asks for a token and the time, and saves at most once. -/
theorem follows_grant (engine : Engine) (key : Text) (address : Json) :
    (engine.grant key).run.Follows (AsksInside engine key (.requestGas address))
      (EndsInside engine key (.requestGas address)) := by
  have failed (h : List Exchange) (e : Failure) (harmless : Harmless e) :
      EndsInside engine key (.requestGas address) h (.error e) := .of_harmless h harmless
  unfold grant
  refine (Action.follows_bind _ _).mpr (follows_findAccount engine ⟨rfl, rfl⟩ ?_ failed)
  intro found
  refine (Action.follows_bind _ _).mpr (follows_tokenOf engine (fun _ _ => trivial) ?_ ?_)
  · intro asked token? reported
    refine (Action.follows_bind _ _).mpr ((Action.follows_request _).mpr ⟨trivial, fun now => ?_⟩)
    cases token? with
    | none =>
      refine (Action.follows_bind _ _).mpr ((Action.follows_ofExcept _).mpr ?_)
      cases allowed : regularAllowance engine.tiers found key now with
      | error e => exact failed _ e (harmless_regularAllowance allowed)
      | ok allowance =>
        have writes : Writes engine key found (.requestGas address) _ _ :=
          .regular reported allowed
        exact (follows_lastSave engine writes).mono (fun g r => by simp) (fun g o => by simp)
    | some token =>
      -- The account of the caller is looked at before the holder of the token.
      have afterwards := follows_tokenGrant engine address found now reported
      cases found with
      | none =>
        exact (afterwards fun _ other => by cases other).mono (fun g r => by simp)
          (fun g o => by simp)
      | some account =>
        refine (Action.follows_bind _ _).mpr ((Action.follows_ofExcept _).mpr ?_)
        cases disabled : refuseDisabled account key with
        | error e => exact failed _ e (harmless_refuseDisabled disabled)
        | ok u =>
          refine (afterwards ?_).mono (fun g r => by simp) (fun g o => by simp)
          intro _ given
          cases given
          exact refuseDisabled_eq_ok disabled
  · exact fun h e harmless => failed _ e harmless

/-- A charge looks its account up and saves at most once. -/
theorem follows_charge (engine : Engine) (key : Text) {raw : Json} {op : UserOperation}
    (read : UserOperation.read raw = .ok op) :
    (engine.charge key (op.cost engine.limits)).run.Follows
      (AsksInside engine key (.sponsor raw)) (EndsInside engine key (.sponsor raw)) := by
  have failed (h : List Exchange) (e : Failure) (harmless : Harmless e) :
      EndsInside engine key (.sponsor raw) h (.error e) := .of_harmless h harmless
  unfold charge
  refine (Action.follows_bind _ _).mpr (follows_findAccount engine ⟨rfl, rfl⟩ ?_ failed)
  intro found
  cases charged : charged? found (op.cost engine.limits) with
  | none =>
    simp only [Action.Onward, charged]
    exact failed _ _ (harmless_plain _)
  | some account =>
    simp only [Action.Onward, charged]
    have writes : Writes engine key found (.sponsor raw) _ _ := .charge read charged
    exact (follows_lastSave engine writes).mono (fun g r => by simp) (fun g o => by simp)

end Paymaster.Engine

import Paymaster.Proofs.Engine.Serving
import Paymaster.Proofs.Traffic

/-!
# Calls that fail

A grant and a charge save at their end, so whatever makes them fail, no save was answered
before (`Engine.SavesLast`). A sponsorship goes on after its charge: one that fails has either
saved nothing, or was charged and then not authorized (`Engine.follows_sponsor_fails`). A call
that has saved nothing has left every record as it was, if its failed saves wrote nothing
(`Engine.not_commits_of_unsaved`, `Engine.left_of_not_commits`).
-/

namespace Paymaster.Engine

variable {α β : Type}

/-! ## Saving last -/

/-- An action that saves nothing. -/
def Quiet (x : Action α) : Prop :=
  x.run.Follows (fun _ r => ∀ a, r ≠ .saveAccount a) fun _ _ => True

/-- An action that has saved nothing when it fails. -/
def SavesLast (x : Action α) : Prop :=
  x.run.Follows (fun _ _ => True) fun h outcome => ∀ e, outcome = .error e → Unsaved h

theorem Unsaved.append {h g : List Exchange} (early : Unsaved h) (late : Unsaved g) :
    Unsaved (h ++ g) := by
  intro a b member
  rcases List.mem_append.mp member with before | after
  · exact early a b before
  · exact late a b after

theorem Quiet.unsaved {x : Action α} (quiet : Quiet x) :
    x.run.Follows (fun _ _ => True) fun h _ => Unsaved h := by
  refine quiet.visited.mono (fun _ _ _ => trivial) fun h outcome ended a b member => ?_
  obtain ⟨before, after, rfl⟩ := List.append_of_mem member
  exact ended.2 before _ after rfl a rfl

theorem savesLast_of_quiet {x : Action α} (quiet : Quiet x) : SavesLast x :=
  quiet.unsaved.mono (fun _ _ => id) fun _ _ unsaved _ _ => unsaved

/-- What saves last may come after what saves nothing. -/
theorem savesLast_bind {x : Action α} {f : α → Action β} (quiet : Quiet x)
    (rest : ∀ a, SavesLast (f a)) : SavesLast (x >>= f) := by
  refine (Action.follows_bind x f).mpr (quiet.unsaved.mono (fun _ _ => id) ?_)
  intro h outcome unsaved
  cases outcome with
  | error e => exact fun _ _ => unsaved
  | ok a => exact (rest a).mono (fun _ _ => id) fun g outcome ended e failed =>
      unsaved.append (ended e failed)

/-- What cannot fail may come after what saves last. -/
theorem savesLast_map {x : Action α} (last : SavesLast x) (f : α → β) :
    SavesLast (do return f (← x)) := by
  refine (Action.follows_bind _ _).mpr (last.mono (fun _ _ => id) ?_)
  intro h outcome ended
  cases outcome with
  | error e => exact fun _ _ => ended e rfl
  | ok a => exact fun e failed => by cases failed

theorem savesLast_hold (source : LockSource) (key : Text) {body : Action α}
    (last : SavesLast body) : SavesLast (Action.hold source key body) := by
  refine (Action.follows_hold _ _ _).mpr ⟨trivial, fun fault e failed a b member => ?_, ?_⟩
  · cases List.mem_singleton.mp member
  · refine last.mono (fun _ _ => id) fun h outcome ended => ⟨trivial, fun e failed => ?_⟩
    intro a b member
    simp only [List.cons_append, List.mem_cons, List.mem_append, List.not_mem_nil,
      or_false] at member
    rcases member with entered | inside | left
    · cases entered
    · exact ended e failed a b inside
    · cases left

/-! ## The parts of a grant and of a charge -/

section Parts

variable (engine : Engine)

theorem quiet_findAccount (address : Text) : Quiet (engine.findAccount address) :=
  follows_findAccount engine (fun _ => Request.noConfusion) (fun _ => trivial)
    (fun _ _ _ => trivial)

theorem quiet_findHolder (token : Int) : Quiet (engine.findHolder token) :=
  follows_findHolder engine (fun _ => Request.noConfusion) (fun _ => trivial)
    (fun _ _ _ => trivial)

theorem quiet_tokenOf (address : Text) : Quiet (engine.tokenOf address) :=
  follows_tokenOf engine (fun _ _ _ => Request.noConfusion) (fun _ _ _ => trivial)
    (fun _ _ _ => trivial)

theorem quiet_clock : Quiet (Action.request .clock) :=
  ⟨fun _ => Request.noConfusion, fun _ => trivial⟩

theorem quiet_ofExcept (e : Except Failure α) : Quiet (Action.ofExcept e) := trivial

theorem savesLast_saveAccount (account : Account) : SavesLast (engine.saveAccount account) :=
  follows_saveAccount engine trivial (fun b e failed => by cases failed)
    (fun detail _ _ => unsaved_refused account (.stale detail))
    (fun _ _ _ unsaved _ _ => unsaved)

theorem savesLast_grant (key : Text) : SavesLast (engine.grant key) := by
  have save (account : Account) : SavesLast (do let _ ← engine.saveAccount account) :=
    savesLast_map (engine.savesLast_saveAccount account) fun _ => ()
  refine savesLast_bind (engine.quiet_findAccount key) fun found => ?_
  refine savesLast_bind (engine.quiet_tokenOf key) fun token? => ?_
  refine savesLast_bind quiet_clock fun now => ?_
  cases token? with
  | none => exact savesLast_bind (quiet_ofExcept _) fun allowance => save _
  | some token =>
    have granted : SavesLast (do
        let holder? ← engine.findHolder token
        let allowance ← Action.ofExcept (tokenAllowance engine.tiers holder? key now)
        let _ ← engine.saveAccount (granted found key allowance now (some token))) :=
      savesLast_bind (engine.quiet_findHolder token) fun holder? =>
        savesLast_bind (quiet_ofExcept _) fun allowance => save _
    cases found with
    | none => exact granted
    | some account => exact savesLast_bind (quiet_ofExcept _) fun _ => granted

theorem savesLast_charge (key : Text) (cost : Nat) : SavesLast (engine.charge key cost) := by
  refine savesLast_bind (engine.quiet_findAccount key) fun found => ?_
  cases charged? found cost with
  | none => exact savesLast_of_quiet trivial
  | some account => exact savesLast_map (engine.savesLast_saveAccount account) fun _ => ()

end Parts

/-! ## Every call -/

theorem quiet_joinLocks : Quiet (Action.request .joinLocks) :=
  ⟨fun _ => Request.noConfusion, fun _ => trivial⟩

/-- A grant that fails has saved nothing. -/
theorem savesLast_requestGas (engine : Engine) (address : Json) :
    SavesLast (engine.serve (.requestGas address)) := by
  refine savesLast_bind quiet_joinLocks fun source => ?_
  refine savesLast_map (savesLast_bind (quiet_ofExcept _) fun key => ?_) fun _ => Reply.granted
  exact savesLast_hold _ _ (savesLast_grant _ key)

/-- A sponsorship that was charged and not authorized afterwards. -/
def Unpaid (engine : Engine) (raw : Json) (h : List Exchange) : Prop :=
  ∃ op early late, UserOperation.read raw = .ok op ∧ h = early ++ late ∧
    Unauthorized engine op late

theorem Unpaid.of_locks {engine : Engine} {source : LockSource} {raw : Json} {h : List Exchange}
    (unpaid : Unpaid { engine with locks := source } raw h) (before : List Exchange) :
    Unpaid engine raw (before ++ h) := by
  rcases unpaid with ⟨op, early, late, read, rfl, unauthorized⟩
  refine ⟨op, before ++ early, late, read, by simp, ?_⟩
  cases unauthorized with
  | outside within => exact .outside within
  | misfit within none => exact .misfit within none
  | late expired => exact .late expired
  | silent nothing => exact .silent nothing
  | unsigned => exact .unsigned

theorem follows_sponsor_fails (engine : Engine) (raw : Json) :
    (engine.sponsor raw).run.Follows (fun _ _ => True) fun h outcome =>
      ∀ e, outcome = .error e → Unsaved h ∨ Unpaid engine raw h := by
  refine (Action.follows_bind _ _).mpr ((Action.follows_ofExcept _).mpr ?_)
  cases read : UserOperation.read raw with
  | error e => exact fun _ _ => .inl unsaved_nil
  | ok op =>
    have charged := savesLast_hold engine.locks (senderKey op)
      (engine.savesLast_charge (senderKey op) (op.cost engine.limits))
    refine (Action.follows_bind _ _).mpr (charged.mono (fun _ _ => id) ?_)
    intro h outcome ended
    cases outcome with
    | error e => exact fun _ _ => .inl (ended e rfl)
    | ok u =>
      rw [Action.Onward]
      refine follows_authorize engine (fun _ _ _ _ _ => trivial) ?_ ?_
      · exact fun g s authorized e failed => by cases failed
      · exact fun g e _ unauthorized _ _ => .inr ⟨op, h, g, read, rfl, unauthorized⟩

/-- A sponsorship that fails has saved nothing, or was not authorized after its charge. -/
theorem follows_serve_fails (engine : Engine) (raw : Json) :
    (engine.serve (.sponsor raw)).run.Follows (fun _ _ => True) fun h outcome =>
      ∀ e, outcome = .error e → Unsaved h ∨ Unpaid engine raw h := by
  refine (Action.follows_bind _ _).mpr (quiet_joinLocks.unsaved.mono (fun _ _ => id) ?_)
  intro h outcome unsaved
  cases outcome with
  | error e => exact fun _ _ => .inl unsaved
  | ok source =>
    refine (Action.follows_bind _ _).mpr
      ((follows_sponsor_fails { engine with locks := source } raw).mono (fun _ _ => id) ?_)
    intro g outcome ended
    cases outcome with
    | ok s => exact fun e failed => by cases failed
    | error e =>
      intro _ _
      rcases ended e rfl with early | unpaid
      · exact .inl (unsaved.append (by simpa using early))
      · exact .inr (by simpa using unpaid.of_locks h)

/-! ## Failing in a run -/

/-- A call wrote an account. -/
def Commits (events : List Event) (i : Nat) : Prop :=
  ∃ e ∈ events, e.call = i ∧ e.commit?.isSome = true

/-- What a call failed to save was not written. -/
def KeptOnFailure (events : List Event) (i : Nat) : Prop :=
  ∀ f ∈ events, f.call = i → ∀ a fault, f.exchange = ⟨.saveAccount a, .error fault⟩ →
    f.left = f.found

section Runs

variable {s s' : Traffic α} {events : List Event} {i : Nat}

theorem left_of_not_commits (run : s.Run events s') (none : ¬Commits events i) :
    ∀ f ∈ events, f.call = i → f.left = f.found := by
  intro f member own
  obtain ⟨before, after, rfl⟩ := List.append_of_mem member
  obtain ⟨s₁, s₂, -, step, -⟩ := run.at
  have committed := step.commit
  cases wrote : f.commit? with
  | none =>
    rw [wrote] at committed
    exact committed
  | some a => exact absurd ⟨f, member, own, by rw [wrote]; rfl⟩ none

theorem not_commits_of_unsaved (kept : KeptOnFailure events i)
    (unsaved : Unsaved (Event.history i events)) : ¬Commits events i := by
  rintro ⟨e, member, rfl, wrote⟩
  obtain ⟨a, wrote⟩ := Option.isSome_iff_exists.mp wrote
  have saves := Event.saves_of_commit? wrote
  have inside := Event.exchange_mem_history member
  obtain ⟨answer, told⟩ : ∃ answer, e.exchange = ⟨.saveAccount a, answer⟩ := by
    rcases e with ⟨call, ⟨request, answer⟩, found, left⟩
    cases saves
    exact ⟨answer, rfl⟩
  cases answer with
  | ok b =>
    rw [told] at inside
    exact unsaved a b inside
  | error fault =>
    have same := kept e member rfl a fault told
    simp [Event.commit?, saves, same] at wrote

end Runs

end Paymaster.Engine

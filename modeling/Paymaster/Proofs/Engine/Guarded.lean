import Paymaster.Proofs.Ledger.Commits
import Paymaster.Proofs.Process

/-!
# Calls that hold their locks

Calls of one process, each with an engine of its own, come to their locks in any order. The
locks guard the calls that entered them, whichever table they belong to (`Engine.Guarded`). A
table of the process that is not empty stays so and is the table of every engine
(`Engine.Occupied`), and then no two calls are inside for one address
(`Engine.exclusive_of_occupied`).
-/

namespace Paymaster

/-! ## Holding -/

/-- A program has entered the lock of an address at a source and has not left it. -/
def Entered (events : List Event) (source : LockSource) (key : Text) (call : Nat) : Prop :=
  ⟨.enterLock source key, .ok ()⟩ ∈ Event.history call events ∧
    ∀ x ∈ Event.history call events, ∀ source', x.request ≠ .leaveLock source' key

/-- No two programs are inside for one address. -/
def Exclusive (events : List Event) : Prop :=
  ∀ key source source' i j, Entered events source key i → Entered events source' key j → i = j

namespace Entered

variable {events : List Event} {e : Event} {source : LockSource} {key : Text} {call : Nat}

/-- What one event does to a hold. -/
theorem snoc (entered : Entered (events ++ [e]) source key call) :
    (Entered events source key call ∨
        e.call = call ∧ e.exchange = ⟨.enterLock source key, .ok ()⟩) ∧
      (e.call = call → ∀ source', e.exchange.request ≠ .leaveLock source' key) := by
  obtain ⟨enters, stays⟩ := entered
  rw [Event.history_append] at enters stays
  have stays' : ∀ x ∈ Event.history call events, ∀ source', x.request ≠ .leaveLock source' key :=
    fun x member => stays x (List.mem_append_left _ member)
  by_cases own : e.call = call
  · subst own
    have last : Event.history e.call [e] = [e.exchange] := by simp [Event.history]
    rw [last] at enters stays
    refine ⟨?_, fun _ => stays e.exchange (by simp)⟩
    rcases List.mem_append.mp enters with before | now
    · exact .inl ⟨before, stays'⟩
    · exact .inr ⟨rfl, (List.mem_singleton.mp now).symm⟩
  · have last : Event.history call [e] = [] := by simp [Event.history, own]
    rw [last, List.append_nil] at enters
    exact ⟨.inl ⟨enters, stays'⟩, fun same => absurd same own⟩

end Entered

namespace Engine

variable {calls : List (Engine × Call)} {accounts : AccountTable} {M : LockTable Nat}
  {p p' : Process (Except Failure Reply)} {events : List Event}

/-- Calls at their start in a process with a lock table. -/
def process (calls : List (Engine × Call)) (accounts : AccountTable) (M : LockTable Nat) :
    Process (Except Failure Reply) :=
  { traffic := traffic calls accounts, locks := { tables := [(.shared, M)] } }

/-- A lock table that a process starts with: it is sound, and no call is in it. -/
structure Ready (calls : List (Engine × Call)) (M : LockTable Nat) : Prop where
  sound : M.Sound
  foreign : ∀ i stay, M.stays.lookup i = some stay → calls[i]? = none

/-- The locks guard the calls that entered them. -/
structure Guarded (calls : List (Engine × Call)) (events : List Event) (l : ProcessLocks) :
    Prop where
  sound : ∀ source, (l.table source).Sound
  keyed : ∀ source i stay engine call, calls[i]? = some (engine, call) →
    (l.table source).stays.lookup i = some stay → call.key? = some stay.key
  holds : ∀ source key i, Entered events source key i → (l.table source).Holds key i

theorem table_process (source : LockSource) :
    (process calls accounts M).locks.table source = if source = .shared then M else {} := by
  cases source <;> rfl

theorem guarded_start (ready : Ready calls M) :
    Guarded calls [] (process calls accounts M).locks := by
  refine ⟨fun source => ?_, fun source i stay engine call named stays => ?_, ?_⟩
  · rw [table_process]
    split
    · exact ready.sound
    · exact .empty
  · rw [table_process] at stays
    split at stays
    · rw [ready.foreign i stay stays] at named
      cases named
    · cases stays
  · intro source key i given
    rcases given with ⟨entered, -⟩
    cases entered

/-- A call that comes to its lock leaves the others guarded. -/
theorem Guarded.enter {l : ProcessLocks} (guarded : Guarded calls events l) {i : Nat}
    {engine : Engine} {call : Call} (named : calls[i]? = some (engine, call)) {key : Text}
    (keyed : call.key? = some key) (source : LockSource) :
    Guarded calls events (l.enter source i key).2 := by
  refine ⟨?_, ?_, ?_⟩
  · exact ProcessLocks.of_table_put ((guarded.sound source).enter i key) guarded.sound
  · apply ProcessLocks.of_table_put (P := fun _ t => ∀ j stay engine call,
      calls[j]? = some (engine, call) → t.stays.lookup j = some stay →
        call.key? = some stay.key) ?_ guarded.keyed
    intro j stay engine' call' named' stays
    rcases LockTable.key_of_stays_enter stays with before | ⟨rfl, here⟩
    · exact guarded.keyed source j stay engine' call' named' before
    · rw [named] at named'
      cases named'
      rw [keyed, here, (isKey_of_key? keyed).lower]
  · apply ProcessLocks.of_table_put (P := fun source t => ∀ key j,
      Entered events source key j → t.Holds key j) ?_ guarded.holds
    intro key' j entered
    exact LockTable.holds_enter (guarded.holds source key' j entered) i key

/-- A call that is given its lock holds it. -/
theorem Guarded.entered {l : ProcessLocks} (guarded : Guarded calls events l) {i : Nat}
    {engine : Engine} {call : Call} (named : calls[i]? = some (engine, call)) {key : Text}
    (keyed : call.key? = some key) {source : LockSource}
    (inside : (l.enter source i key).1 = true) :
    ((l.enter source i key).2.table source).Holds key i := by
  have after := guarded.enter named keyed source
  rw [ProcessLocks.enter, ProcessLocks.table_put_self]
  have sound := after.sound source
  have keys := after.keyed source i
  rw [ProcessLocks.enter, ProcessLocks.table_put_self] at sound keys
  obtain ⟨key', serial, stays, holds⟩ := sound.holds_of_isInside inside
  have same := keys _ engine call named stays
  rw [keyed] at same
  cases same
  exact holds

/-- What a call may have exchanged before it gives its lock back. -/
theorem key_of_leaves {engine : Engine} {call : Call} {h : List Exchange} {source : LockSource}
    {key : Text} (asks : Engine.Asks engine call h (.leaveLock source key)) {source' : LockSource}
    {key' : Text} (entered : ⟨.enterLock source' key', .ok ()⟩ ∈ h) : key' = key := by
  obtain ⟨mid, rfl, -, others⟩ := asks
  rcases List.mem_append.mp entered with opening | later
  · rcases mem_opened.mp opening with joined | enters
    · cases joined
    · cases enters
      rfl
  · cases others _ later

/-- An event that enters no lock leaves all calls guarded. -/
theorem Guarded.snoc {l : ProcessLocks} (guarded : Guarded calls events l) {e : Event}
    (other : ∀ source key, e.exchange ≠ ⟨.enterLock source key, .ok ()⟩) :
    Guarded calls (events ++ [e]) l := by
  refine ⟨guarded.sound, guarded.keyed, fun source key i entered => ?_⟩
  rcases entered.snoc.1 with before | ⟨-, enters⟩
  · exact guarded.holds source key i before
  · exact absurd enters (other source key)

/-- A call that gives its lock back leaves the others guarded. -/
theorem Guarded.leave {l : ProcessLocks} (guarded : Guarded calls events l) {e : Event}
    {engine : Engine} {call : Call} {source : LockSource} {key : Text}
    (asks : Asks engine call (Event.history e.call events) (.leaveLock source key))
    (leaves : e.exchange = ⟨.leaveLock source key, ()⟩) :
    Guarded calls (events ++ [e]) (l.leave source e.call) := by
  have before : ∀ source' key' j, Entered (events ++ [e]) source' key' j →
      Entered events source' key' j ∧ e.call ≠ j := by
    intro source' key' j entered
    obtain ⟨before | ⟨-, enters⟩, stays⟩ := entered.snoc
    · refine ⟨before, ?_⟩
      intro same
      subst same
      refine stays rfl source ?_
      rw [leaves, key_of_leaves asks before.1]
    · rw [leaves] at enters
      cases enters
  refine ⟨?_, ?_, ?_⟩
  · exact ProcessLocks.of_table_put ((guarded.sound source).leave e.call) guarded.sound
  · apply ProcessLocks.of_table_put (P := fun _ t => ∀ j stay engine call,
      calls[j]? = some (engine, call) → t.stays.lookup j = some stay →
        call.key? = some stay.key) ?_ guarded.keyed
    intro j stay engine' call' named stays
    by_cases own : j = e.call
    · rw [own, (guarded.sound source).stays_leave] at stays
      cases stays
    · rw [(guarded.sound source).stays_leave_of_ne own] at stays
      exact guarded.keyed source j stay engine' call' named stays
  · apply ProcessLocks.of_table_put (P := fun source t => ∀ key j,
      Entered (events ++ [e]) source key j → t.Holds key j)
    · intro key' j entered
      obtain ⟨earlier, other⟩ := before source key' j entered
      exact (guarded.sound source).holds_leave (guarded.holds source key' j earlier) other
    · intro source' key' j entered
      exact guarded.holds source' key' j (before source' key' j entered).1

theorem guarded_step (run : (traffic calls accounts).Run events p.traffic)
    (guarded : Guarded calls events p.locks) {e? : Option Event} (step : p.Step e? p') :
    Guarded calls (events ++ e?.toList) p'.locks := by
  cases step with
  | wait asked inside =>
    obtain ⟨engine, call, named, asks⟩ := asks_of_next run asked
    rw [Option.toList_none, List.append_nil]
    exact guarded.enter named asks.2 _
  | @go e s l step answers =>
    obtain ⟨engine, call, named, asks⟩ := asks_of_run (run.step step)
    rw [Option.toList_some]
    obtain ⟨i, ⟨r, answer⟩, found, left⟩ := e
    cases answers with
    | joined =>
      have base : Guarded calls events p.locks.join.2 :=
        ⟨guarded.sound, guarded.keyed, guarded.holds⟩
      exact base.snoc fun source key enters => by cases enters
    | @entered source key inside =>
      have base := guarded.enter named asks.2 source
      refine ⟨base.sound, base.keyed, fun source' key' j entered => ?_⟩
      rcases entered.snoc.1 with before | ⟨rfl, enters⟩
      · exact base.holds source' key' j before
      · cases enters
        exact guarded.entered named asks.2 inside
    | left => exact guarded.leave asks rfl
    | elsewhere _ other => exact guarded.snoc fun source key enters => by cases enters; cases other

theorem guarded_of_run (ready : Ready calls M) (run : (process calls accounts M).Run events p) :
    Guarded calls events p.locks := by
  induction run with
  | refl => exact guarded_start ready
  | step run step ih => exact guarded_step run.traffic ih step

/-! ## A table that is not empty -/

/-- The table of the process has a task that is no call, and every engine took the table. -/
structure Occupied (calls : List (Engine × Call)) (events : List Event) (l : ProcessLocks) :
    Prop where
  stays : ∃ task stay, calls[task]? = none ∧ (l.table .shared).stays.lookup task = some stay
  taken : ∀ e ∈ events, ∀ source, e.exchange = ⟨.joinLocks, source⟩ → source = .shared

theorem occupied_start (ready : Ready calls M) (used : M.isEmpty = false) :
    Occupied calls [] (process calls accounts M).locks := by
  refine ⟨?_, fun e member => by cases member⟩
  obtain ⟨task, stay, stays⟩ := ready.sound.isEmpty_eq_false_iff.mp used
  exact ⟨task, stay, ready.foreign task stay stays, stays⟩

theorem Occupied.enter {l : ProcessLocks} (occupied : Occupied calls events l) {i : Nat}
    {engine : Engine} {call : Call} (named : calls[i]? = some (engine, call))
    (source : LockSource) (address : Text) :
    Occupied calls events (l.enter source i address).2 := by
  obtain ⟨⟨task, stay, foreign, stays⟩, taken⟩ := occupied
  have other : task ≠ i := by
    intro same
    subst same
    rw [foreign] at named
    cases named
  refine ⟨⟨task, stay, foreign, ?_⟩, taken⟩
  apply ProcessLocks.of_table_put (P := fun source t =>
    source = .shared → t.stays.lookup task = some stay)
  · intro same
    subst same
    rw [LockTable.stays_enter_of_ne other]
    exact stays
  · intro _ same
    subst same
    exact stays
  · rfl

theorem Occupied.snoc {l : ProcessLocks} (occupied : Occupied calls events l) {e : Event}
    (taken : ∀ source, e.exchange = ⟨.joinLocks, source⟩ → source = .shared) :
    Occupied calls (events ++ [e]) l := by
  refine ⟨occupied.stays, fun f member => ?_⟩
  rcases List.mem_append.mp member with before | now
  · exact occupied.taken f before
  · rw [List.mem_singleton.mp now]
    exact taken

theorem occupied_step (run : (traffic calls accounts).Run events p.traffic)
    (guarded : Guarded calls events p.locks) (occupied : Occupied calls events p.locks)
    {e? : Option Event} (step : p.Step e? p') :
    Occupied calls (events ++ e?.toList) p'.locks := by
  cases step with
  | wait asked inside =>
    obtain ⟨engine, call, named, -⟩ := asks_of_next run asked
    rw [Option.toList_none, List.append_nil]
    exact occupied.enter named _ _
  | @go e s l step answers =>
    obtain ⟨engine, call, named, -⟩ := asks_of_run (run.step step)
    rw [Option.toList_some]
    obtain ⟨i, ⟨r, answer⟩, found, left⟩ := e
    cases answers with
    | joined =>
      have used := (guarded.sound .shared).isEmpty_eq_false_iff.mpr
        (occupied.stays.imp fun task stays => stays.imp fun stay => And.right)
      have base : Occupied calls events p.locks.join.2 := ⟨occupied.stays, occupied.taken⟩
      refine base.snoc fun source same => ?_
      cases same
      show LockSource.ofTable (p.locks.table .shared).isEmpty p.locks.engines = .shared
      rw [used]
      rfl
    | entered inside =>
      exact (occupied.enter named _ _).snoc fun source same => by cases same
    | @left source key =>
      obtain ⟨task, stay, foreign, stays⟩ := occupied.stays
      have other : task ≠ i := by
        intro same
        subst same
        rw [foreign] at named
        cases named
      have base : Occupied calls events (p.locks.leave source i) := by
        refine ⟨⟨task, stay, foreign, ?_⟩, occupied.taken⟩
        apply ProcessLocks.of_table_put (P := fun source t =>
          source = .shared → t.stays.lookup task = some stay)
        · intro same
          subst same
          rw [(guarded.sound .shared).stays_leave_of_ne other]
          exact stays
        · intro _ same
          subst same
          exact stays
        · rfl
      exact base.snoc fun source same => by cases same
    | elsewhere _ other => exact occupied.snoc fun source same => by cases same; cases other

theorem occupied_of_run (ready : Ready calls M) (used : M.isEmpty = false)
    (run : (process calls accounts M).Run events p) : Occupied calls events p.locks := by
  induction run with
  | refl => exact occupied_start ready used
  | step run step ih =>
    exact occupied_step run.traffic (guarded_of_run ready run) ih step

/-! ## Who is inside -/

/-- A call that is inside took the table and has the key. -/
theorem joined_of_entered {s : Traffic (Except Failure Reply)}
    (run : (traffic calls accounts).Run events s) {source : LockSource} {key : Text} {i : Nat}
    (entered : Entered events source key i) :
    (∃ e ∈ events, e.exchange = ⟨.joinLocks, source⟩) ∧
      ∃ engine call, calls[i]? = some (engine, call) ∧ call.key? = some key := by
  obtain ⟨e, member, rfl, enters⟩ := Event.of_mem_history entered.1
  obtain ⟨before, after, rfl⟩ := List.append_of_mem member
  obtain ⟨engine, call, named, asks⟩ := asks_of_run run
  rw [enters] at asks
  obtain ⟨told, keyed⟩ := asks
  have joined : (⟨.joinLocks, source⟩ : Exchange) ∈ Event.history e.call before := by simp [told]
  obtain ⟨f, earlier, -, exchanged⟩ := Event.of_mem_history joined
  exact ⟨⟨f, by simp [earlier], exchanged⟩, engine, call, named, keyed⟩

theorem exclusive_of_occupied (ready : Ready calls M) (used : M.isEmpty = false)
    (run : (process calls accounts M).Run events p) : Exclusive events := by
  intro key source source' i j entered entered'
  obtain ⟨⟨e, member, joined⟩, -⟩ := joined_of_entered run.traffic entered
  obtain ⟨⟨e', member', joined'⟩, -⟩ := joined_of_entered run.traffic entered'
  have occupied := occupied_of_run ready used run
  have guarded := guarded_of_run ready run
  have shared := occupied.taken e member source joined
  have shared' := occupied.taken e' member' source' joined'
  subst shared shared'
  exact (guarded.holds .shared key i entered).unique (guarded.holds .shared key j entered')

end Engine

end Paymaster

import Paymaster.Proofs.Engine.Guarded

/-!
# Calls that exclude each other

When are calls of one address served one after the other? If the table of the process is not
empty when the engines are made, always. If it is empty every engine has a table of its own,
and two calls of one address meet inside (`Engine.meet_of_isEmpty`). So calls exclude each other
exactly if the table is not empty or no two of them are about one account
(`Engine.serialized_iff`). Calls that exclude each other never lose a save
(`Engine.unopposed_of_exclusive`).
-/

namespace Paymaster

namespace Engine

variable {calls : List (Engine × Call)} {accounts : AccountTable} {M : LockTable Nat}
  {p : Process (Except Failure Reply)} {events : List Event}

/-! ## Calls of different accounts -/

/-- No two calls are about one account. -/
def Distinct (calls : List (Engine × Call)) : Prop :=
  ∀ (i j : Nat) (c c' : Engine × Call) (key : Text), calls[i]? = some c → calls[j]? = some c' →
    c.2.key? = some key → c'.2.key? = some key → i = j

theorem exclusive_of_distinct {s : Traffic (Except Failure Reply)}
    (run : (traffic calls accounts).Run events s) (distinct : Distinct calls) :
    Exclusive events := by
  intro key source source' i j entered entered'
  obtain ⟨-, engine, call, named, keyed⟩ := joined_of_entered run entered
  obtain ⟨-, engine', call', named', keyed'⟩ := joined_of_entered run entered'
  exact distinct i j (engine, call) (engine', call') key named named' keyed keyed'

/-! ## Calls that meet -/

theorem run_serve (engine : Engine) {call : Call} {key : Text} (keyed : call.key? = some key) :
    ∃ next, (engine.serve call).run = .ask .joinLocks next ∧
      ∀ source, ∃ next', next source = .ask (.enterLock source key) next' := by
  refine ⟨fun source => ({ engine with locks := source }.perform call).run, rfl, fun source => ?_⟩
  cases call with
  | requestGas address =>
    have given : addressKey address = .ok key := by
      rw [Call.key?] at keyed
      cases given : addressKey address with
      | error e =>
        rw [given] at keyed
        cases keyed
      | ok key' =>
        rw [given] at keyed
        cases keyed
        rfl
    simp only [perform, requestGas]
    rw [given]
    exact ⟨_, rfl⟩
  | sponsor raw =>
    cases read : UserOperation.read raw with
    | error e =>
      rw [Call.key?, read] at keyed
      cases keyed
    | ok op =>
      rw [Call.key?, read] at keyed
      cases keyed
      simp only [perform, sponsor]
      rw [read]
      exact ⟨_, rfl⟩

/-- A process whose table is empty, with no table yet for the engines to come. -/
structure Idle (l : ProcessLocks) : Prop where
  empty : (l.table .shared).isEmpty = true
  unused : ∀ n, l.engines ≤ n → l.table (.own n) = {}

theorem enter_unused {l : ProcessLocks} (idle : Idle l) (i : Nat) (key : Text) :
    (l.join.2.enter (.own l.engines) i key).1 = true ∧
      Idle (l.join.2.enter (.own l.engines) i key).2 := by
  have unused : l.join.2.table (.own l.engines) = {} := idle.unused l.engines (Nat.le_refl _)
  refine ⟨?_, ?_, fun n later => ?_⟩
  · rw [ProcessLocks.enter, unused]
    have found : (({} : LockTable Nat).enter i key).find? key.lower = _ :=
      LockTable.find?_enter rfl key.lower
    rw [if_pos rfl] at found
    exact LockTable.isInside_of_holds ⟨_, found, rfl⟩
  · rw [ProcessLocks.enter, ProcessLocks.table_put_of_ne (by simp)]
    exact idle.empty
  · have later' : l.engines + 1 ≤ n := later
    have other : LockSource.own n ≠ .own l.engines := by
      intro same
      cases same
      omega
    rw [ProcessLocks.enter, ProcessLocks.table_put_of_ne other]
    exact idle.unused n (by omega)

/-- In an idle process a call comes inside at once, with a table of its own. -/
theorem run_inside {i : Nat} {engine : Engine} {call : Call} {key : Text}
    (idle : Idle p.locks) (started : p.traffic.programs[i]? = some (engine.serve call).run)
    (keyed : call.key? = some key) :
    ∃ e e' p', p.Run [e, e'] p' ∧ e.call = i ∧ e'.call = i ∧
      (∃ source, e.exchange = ⟨.joinLocks, source⟩ ∧
        e'.exchange = ⟨.enterLock source key, .ok ()⟩) ∧
      Idle p'.locks ∧ ∀ j, j ≠ i → p'.traffic.programs[j]? = p.traffic.programs[j]? := by
  obtain ⟨next, joins, enters⟩ := run_serve engine keyed
  rw [joins] at started
  have bound := (List.getElem?_eq_some_iff.mp started).1
  have own : p.locks.join.1 = .own p.locks.engines := by
    show LockSource.ofTable (p.locks.table .shared).isEmpty p.locks.engines = _
    rw [idle.empty]
    rfl
  obtain ⟨inside, idle'⟩ := enter_unused idle i key
  rw [← own] at inside idle'
  obtain ⟨next', enters⟩ := enters p.locks.join.1
  have join := Process.step_of_answers started rfl .joined
  have started' : (p.traffic.programs.set i (next p.locks.join.1))[i]?
      = some (.ask (.enterLock p.locks.join.1 key) next') := by
    rw [List.getElem?_set_self bound, enters]
  have enter := Process.step_of_answers
    (p := ⟨⟨p.traffic.programs.set i (next p.locks.join.1), p.traffic.accounts⟩, p.locks.join.2⟩)
    started' rfl (.entered inside)
  refine ⟨_, _, _, (Process.Run.refl.step join).step enter, rfl, rfl, ⟨_, rfl, rfl⟩, idle', ?_⟩
  intro j other
  show ((p.traffic.programs.set i _).set i _)[j]? = _
  rw [List.getElem?_set_ne (Ne.symm other), List.getElem?_set_ne (Ne.symm other)]

theorem idle_start (empty : M.isEmpty = true) : Idle (process calls accounts M).locks := by
  refine ⟨?_, fun n _ => ?_⟩
  · rw [table_process, if_pos rfl]
    exact empty
  · rw [table_process, if_neg (by simp)]

/-- From an empty table two calls of one account come inside together. -/
theorem meet_of_isEmpty (accounts : AccountTable) (empty : M.isEmpty = true) {i j : Nat}
    (ne : i ≠ j) {engine engine' : Engine} {call call' : Call} {key : Text}
    (named : calls[i]? = some (engine, call)) (named' : calls[j]? = some (engine', call'))
    (keyed : call.key? = some key) (keyed' : call'.key? = some key) :
    ∃ events p source source', (process calls accounts M).Run events p ∧
      Entered events source key i ∧ Entered events source' key j := by
  have started : (process calls accounts M).traffic.programs[i]? = some (engine.serve call).run :=
    started_traffic named
  obtain ⟨e₁, e₂, p, run, own₁, own₂, ⟨source, joined, entered⟩, idle, others⟩ :=
    run_inside (idle_start empty) started keyed
  have started' : p.traffic.programs[j]? = some (engine'.serve call').run := by
    rw [others j (Ne.symm ne)]
    exact started_traffic named'
  obtain ⟨e₃, e₄, p', run', own₃, own₄, ⟨source', joined', entered'⟩, -, -⟩ :=
    run_inside idle started' keyed'
  refine ⟨_, p', source, source', run.trans run', ?_, ?_⟩
  all_goals
    unfold Entered Event.history
    simp [own₁, own₂, own₃, own₄, joined, entered, joined', entered', ne, Ne.symm ne]

/-! ## Saves that are not lost -/

section Runs

variable {s : Traffic (Except Failure Reply)}

/-- Between its look-up and its save a call is inside. -/
theorem Attempt.entered {engine : Engine} {call : Call} {found : Option Account}
    {early first second : List Event} {look e : Event} {a : Account}
    (attempt : Attempt engine call found early look (first ++ second) e a) :
    ∃ source, Entered (early ++ look :: first) source a.address e.call := by
  obtain ⟨source, opening⟩ := attempt.opening
  have quiet := attempt.writes.quiet
  rw [Event.history_append] at quiet
  have told : Event.history e.call (early ++ look :: first)
      = opened source a.address
        ++ ⟨.findAccount a.address, .ok found⟩ :: Event.history e.call first := by
    rw [Event.history_append, opening, ← attempt.own, Event.history_cons_self, attempt.asked]
  refine ⟨source, ?_, fun x member source' leaves => ?_⟩
  · rw [told]
    simp [opened]
  · rw [told] at member
    rcases List.mem_append.mp member with opening | later
    · rcases mem_opened.mp opening with rfl | rfl <;> cases leaves
    · rcases List.mem_cons.mp later with rfl | since
      · cases leaves
      · have other := (quiet x (List.mem_append_left _ since)).2
        rw [leaves] at other
        cases other

/-- While calls exclude each other, the row that a call found is still there when it saves. -/
theorem row_kept_of_exclusive {early late after : List Event} {look e : Event}
    (run : (traffic calls accounts).Run ((early ++ look :: late) ++ e :: after) s)
    (exclusive : ∀ before after', (early ++ look :: late) ++ e :: after = before ++ after' →
      Exclusive before)
    {engine : Engine} {call : Call} {found : Option Account} {a : Account}
    (attempt : Attempt engine call found early look late e a)
    (saves : e.exchange.request = .saveAccount a) :
    e.found.row? a.address = look.found.row? a.address := by
  obtain ⟨s₁, s₂, first, step, -⟩ := run.at
  obtain ⟨s₃, s₄, -, looks, rest⟩ := first.at
  obtain ⟨lookFound, lookLeft, read⟩ := looks.tables
  rw [attempt.asked] at read
  rw [step.tables.1, ← (AccountTable.Answers.findAccount read).2, lookLeft]
  refine rest.row_untouched fun f member b wrote same => ?_
  obtain ⟨l₁, l₂, rfl⟩ := List.append_of_mem member
  have saves' := Event.saves_of_commit? wrote
  by_cases own : f.call = e.call
  · exact once_of_run run saves f (by simp) own b saves'
  · -- Another call that saves here would be inside together with this one.
    obtain ⟨source, inside⟩ := attempt.entered
    have whole : (early ++ look :: (l₁ ++ f :: l₂)) ++ e :: after
        = (early ++ look :: l₁) ++ f :: (l₂ ++ e :: after) := by simp
    rw [whole] at run
    obtain ⟨engine', call', found', early', look', late', -, split, attempt'⟩ :=
      attempt_of_run run saves'
    rw [← List.append_nil late'] at attempt'
    obtain ⟨source', inside'⟩ := attempt'.entered
    rw [same, ← split] at inside'
    exact own (exclusive _ _ whole a.address source source' e.call f.call inside inside').symm

/-- While calls exclude each other, none fails for a conflict. -/
theorem unopposed_of_exclusive (run : (traffic calls accounts).Run events s)
    (numbered : accounts.Numbered)
    (exclusive : ∀ before after, events = before ++ after → Exclusive before) (i : Nat) :
    s.programs[i]? ≠ some (.done (.error conflict)) := by
  intro lost
  obtain ⟨engine, call, named⟩ := named_of_run run lost
  obtain ⟨before, e, after, a, detail, rfl, -, refused⟩ := stale_of_conflict run named lost
  have saves : e.exchange.request = .saveAccount a := by rw [refused]
  obtain ⟨engine', call', found, early, look, late, -, rfl, attempt⟩ := attempt_of_run run saves
  have kept := row_kept_of_exclusive run exclusive attempt saves
  obtain ⟨s₁, s₂, first, step, -⟩ := run.at
  have answered := step.tables.2.2
  rw [refused] at answered
  have verdict := AccountTable.expected_of_stale answered.stale.1
  obtain ⟨s₃, s₄, opening, looks, -⟩ := first.at
  have numbered' := opening.numbered numbered
  rw [← looks.tables.1] at numbered'
  have version := attempt.writes.version
  rw [kept] at verdict
  -- The save expects the version of the row that is there.
  rcases AccountTable.row_of_findByAddress attempt.isKey attempt.read with
    ⟨r, b, present, account, rfl⟩ | ⟨absent, rfl⟩
  · have same := (Row.version_of_toAccount? account).1
    have positive := numbered' r (AccountTable.mem_of_row? present).1
    have asked : a.version = b.version := version
    rcases verdict with ⟨fresh, -⟩ | ⟨-, other⟩
    · omega
    · exact other r present (by omega)
  · rcases verdict with ⟨-, there⟩ | ⟨known, -⟩
    · exact there absent
    · exact known version

end Runs

/-! ## The calls of a process -/

/-- In every run of a process calls exclude each other and lose no save, exactly if its lock
table is not empty at the start or no two calls are about one account. In a single run it is
enough that calls exclude each other at all times. -/
theorem serialized_iff (ready : Ready calls M) (numbered : accounts.Numbered) :
    ((∀ events p, (process calls accounts M).Run events p →
        Exclusive events ∧ ∀ i : Nat, p.traffic.programs[i]? ≠ some (.done (.error conflict))) ↔
      M.isEmpty = false ∨ Distinct calls) ∧
    ∀ events p, (process calls accounts M).Run events p →
      (∀ before after, events = before ++ after → Exclusive before) →
      ∀ i : Nat, p.traffic.programs[i]? ≠ some (.done (.error conflict)) := by
  have unopposed : ∀ events p, (process calls accounts M).Run events p →
      (∀ before after, events = before ++ after → Exclusive before) →
      ∀ i : Nat, p.traffic.programs[i]? ≠ some (.done (.error conflict)) :=
    fun events p run prefixes => unopposed_of_exclusive run.traffic numbered prefixes
  refine ⟨⟨fun serialized => ?_, fun apart => ?_⟩, unopposed⟩
  · cases empty : M.isEmpty with
    | false => exact .inl rfl
    | true =>
      refine .inr fun i j c c' key named named' keyed keyed' => ?_
      refine Decidable.byContradiction fun ne => ?_
      obtain ⟨events, p, source, source', run, inside, inside'⟩ :=
        meet_of_isEmpty accounts empty ne named named' keyed keyed'
      exact ne ((serialized events p run).1 key source source' i j inside inside')
  · have exclusive : ∀ events p, (process calls accounts M).Run events p → Exclusive events := by
      intro events p run
      rcases apart with used | distinct
      · exact exclusive_of_occupied ready used run
      · exact exclusive_of_distinct run.traffic distinct
    refine fun events p run => ⟨exclusive events p run, unopposed events p run ?_⟩
    intro before after same
    subst same
    obtain ⟨mid, first⟩ := run.start
    exact exclusive before mid first

theorem serialized_iff_held :
    let address : Json := .text Address.zero.lower
    let calls : List (Engine × Call) :=
      [(small none, .requestGas address), (small none, .requestGas address)]
    let M : LockTable Nat := ({} : LockTable Nat).enter 2 Address.zero.lower
    Ready calls M ∧ AccountTable.Numbered [] ∧ M.isEmpty = false ∧
      ((∀ events p, (process calls [] M).Run events p →
          Exclusive events ∧
            ∀ i : Nat, p.traffic.programs[i]? ≠ some (.done (.error conflict))) ↔
        M.isEmpty = false ∨ Distinct calls) := by
  intro address calls M
  have ready : Ready calls M := by
    refine ⟨LockTable.Sound.empty.enter 2 Address.zero.lower, fun i stay stays => ?_⟩
    rcases LockTable.key_of_stays_enter stays with before | ⟨rfl, -⟩
    · cases before
    · rfl
  have numbered : AccountTable.Numbered [] := fun r member => by cases member
  exact ⟨ready, numbered, by decide +kernel, (serialized_iff ready numbered).1⟩

/-- A call has failed for a conflict. -/
def hasLost (s : Traffic (Except Failure Reply)) (call : Nat) : Bool :=
  match s.programs[call]? with
  | some (.done (.error (.rpc ⟨.internal, code, message, .text reason⟩))) =>
    code = -32603 && message = "Internal error" && reason = "concurrent account update"
  | _ => false

theorem conflict_of_hasLost {s : Traffic (Except Failure Reply)} {call : Nat}
    (lost : hasLost s call = true) : s.programs[call]? = some (.done (.error conflict)) := by
  unfold hasLost at lost
  split at lost
  · rename_i code message reason ended
    simp only [Bool.and_eq_true, decide_eq_true_eq] at lost
    obtain ⟨⟨rfl, rfl⟩, rfl⟩ := lost
    exact ended
  · cases lost

/-- Two grants to one new address, in a process as it starts, come inside together; both find
no record, and one of them fails for a conflict. -/
theorem not_serialized_empty :
    let address : Json := .text Address.zero.lower
    let calls : List (Engine × Call) :=
      [(small none, .requestGas address), (small none, .requestGas address)]
    (∃ events p, (process calls [] {}).Run events p ∧ ¬Exclusive events) ∧
      ∃ events p, (process calls [] {}).Run events p ∧
        p.traffic.programs[1]? = some (.done (.error conflict)) := by
  intro address calls
  constructor
  · have keyed : (Call.requestGas address).key? = some Address.zero.lower := by decide +kernel
    have empty : ({} : LockTable Nat).isEmpty = true := rfl
    have first : calls[0]? = some (small none, .requestGas address) := rfl
    have second : calls[1]? = some (small none, .requestGas address) := rfl
    obtain ⟨events, p, source, source', run, inside, inside'⟩ :=
      meet_of_isEmpty [] empty Nat.zero_ne_one first second keyed keyed
    refine ⟨events, p, run, fun exclusive => ?_⟩
    exact Nat.zero_ne_one (exclusive _ source source' 0 1 inside inside')
  · have played := Process.run_play (process calls [] {})
      ((List.replicate 6 [0, 1]).flatten.map fun call => { call : Traffic.Turn })
    exact ⟨_, _, played, conflict_of_hasLost (by decide +kernel)⟩

end Engine

end Paymaster

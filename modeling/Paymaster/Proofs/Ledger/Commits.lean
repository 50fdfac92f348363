import Paymaster.Proofs.Engine.Serving
import Paymaster.Proofs.Traffic

/-!
# Commits of calls

Calls that share an accounts table, each with an engine of its own and none waiting for
another. A save of a call is told by the look-up that the call made before (`Engine.Attempt`),
and if it is done, the record that it replaced is still the one that was found
(`Engine.Attempt.unmoved`). A call saves at most once (`Engine.once_of_run`), and it has saved
when it has a result (`Engine.saved_of_reply`).
-/

namespace Paymaster

namespace AccountTable

theorem address_of_findByAddress {t : AccountTable} {key : Text} {a : Account}
    (isKey : key.IsKey) (read : t.findByAddress key = .ok (some a)) : a.address = key := by
  rcases row_of_findByAddress isKey read with ⟨r, b, present, account, same⟩ | ⟨-, none⟩
  · cases same
    have lowered := (Row.version_of_toAccount? account).2.1
    rw [(mem_of_row? present).2, isKey.lower] at lowered
    exact lowered
  · cases none

end AccountTable

namespace Engine

/-- Calls at their start, each with an engine of its own, over one table. -/
def traffic (calls : List (Engine × Call)) (accounts : AccountTable) :
    Traffic (Except Failure Reply) :=
  { programs := calls.map fun c => (c.1.serve c.2).run, accounts }

/-- An engine without deadlines; its tiers are 7, 5 and 9, its limits 1, 2 and 3. -/
def small (vip : Option Address) : Engine where
  tiers := { create := 7, regular := 5, vip := 9, vipContract := [] }
  client := { paymaster := .zero, vip, signer := ⟨1, by decide, by decide⟩, deadline := ⟨.null⟩ }
  limits := ⟨1, 2, 3⟩
  locks := .shared
  storeDeadline := ⟨.null⟩

/-- A save of a call, told by the look-up of the call before it. -/
structure Attempt (engine : Engine) (call : Call) (found : Option Account) (early : List Event)
    (look : Event) (late : List Event) (e : Event) (a : Account) : Prop where
  own : look.call = e.call
  keyed : call.key? = some a.address
  asked : look.exchange = ⟨.findAccount a.address, .ok found⟩
  read : look.found.findByAddress a.address = .ok found
  opening : ∃ source, Event.history e.call early = opened source a.address
  writes : Writes engine a.address found call (Event.history e.call late) a
  later : look.found.Later e.found

variable {calls : List (Engine × Call)} {accounts : AccountTable}
  {s : Traffic (Except Failure Reply)} {before after : List Event} {e : Event}

theorem started_traffic {i : Nat} {engine : Engine} {call : Call}
    (named : calls[i]? = some (engine, call)) :
    (traffic calls accounts).programs[i]? = some (engine.serve call).run := by
  simp [traffic, named]

theorem named_of_run {events : List Event} (run : (traffic calls accounts).Run events s)
    {i : Nat} {p : Program (Except Failure Reply)} (under : s.programs[i]? = some p) :
    ∃ engine call, calls[i]? = some (engine, call) := by
  obtain ⟨p, started⟩ := run.present under
  cases named : calls[i]? with
  | none => simp [traffic, named] at started
  | some c => exact ⟨c.1, c.2, rfl⟩

/-- A call may ask what it asks next. -/
theorem asks_of_next {events : List Event} (run : (traffic calls accounts).Run events s)
    {i : Nat} {r : Request} {next : r.Answer → Program (Except Failure Reply)}
    (asked : s.programs[i]? = some (.ask r next)) :
    ∃ engine call, calls[i]? = some (engine, call) ∧
      Asks engine call (Event.history i events) r := by
  obtain ⟨engine, call, named⟩ := named_of_run run asked
  obtain ⟨q, under, reached⟩ := run.reaches (started_traffic named)
  rw [asked] at under
  cases under
  exact ⟨engine, call, named, reached.asked (follows_serve engine call)⟩

/-- Every event is one of a call, and the call may ask what it asks. -/
theorem asks_of_run (run : (traffic calls accounts).Run (before ++ e :: after) s) :
    ∃ engine call, calls[e.call]? = some (engine, call) ∧
      Asks engine call (Event.history e.call before) e.exchange.request := by
  obtain ⟨mid, mid', first, step, -⟩ := run.at
  cases step with
  | answer asked answered => exact asks_of_next first asked

/-- Every save is an attempt on what its call had found. -/
theorem attempt_of_run (run : (traffic calls accounts).Run (before ++ e :: after) s)
    {a : Account} (saves : e.exchange.request = .saveAccount a) :
    ∃ engine call found early look late, calls[e.call]? = some (engine, call) ∧
      before = early ++ look :: late ∧ Attempt engine call found early look late e a := by
  obtain ⟨engine, call, named, asks⟩ := asks_of_run run
  rw [saves] at asks
  obtain ⟨source, key, found, mid, told, keyed, writes⟩ := asks
  obtain ⟨early, look, late, rfl, own, asked, opening, rest⟩ := Event.of_history told
  rw [List.append_assoc, List.cons_append] at run
  obtain ⟨s₁, s₂, -, step, -⟩ := run.at
  obtain ⟨-, -, answered⟩ := step.tables
  rw [asked] at answered
  obtain ⟨read, same⟩ := answered.findAccount
  have later := run.later_between
  rw [same] at later
  have isKey := isKey_of_key? keyed
  have address : a.address = key := by
    refine writes.address fun old known => ?_
    rw [known] at read
    exact AccountTable.address_of_findByAddress isKey read
  subst address
  exact ⟨engine, call, found, early, look, late, named, rfl, own, keyed, asked, read,
    ⟨source, opening⟩, rest ▸ writes, later⟩

/-- A save of a known call is an attempt of it. -/
theorem attempt_of_named (run : (traffic calls accounts).Run (before ++ e :: after) s)
    {engine : Engine} {call : Call} (named : calls[e.call]? = some (engine, call)) {a : Account}
    (saves : e.exchange.request = .saveAccount a) :
    ∃ found early look late, before = early ++ look :: late ∧
      Attempt engine call found early look late e a := by
  obtain ⟨engine', call', found, early, look, late, named', split, attempt⟩ :=
    attempt_of_run run saves
  rw [named] at named'
  cases named'
  exact ⟨found, early, look, late, split, attempt⟩

namespace Attempt

variable {engine : Engine} {call : Call} {found : Option Account} {early late : List Event}
  {look : Event} {a : Account}

theorem isKey (attempt : Attempt engine call found early look late e a) : a.address.IsKey :=
  isKey_of_key? attempt.keyed

/-- A save that is done replaces the record that its call had found. -/
theorem unmoved (attempt : Attempt engine call found early look late e a)
    (saved : e.found.Saved a e.left) :
    e.found.row? a.address = look.found.row? a.address :=
  AccountTable.row_unmoved attempt.isKey attempt.read attempt.later attempt.writes.version saved

theorem account?_found (attempt : Attempt engine call found early look late e a)
    (saved : e.found.Saved a e.left) : e.found.account? a.address = found := by
  rw [AccountTable.account?, attempt.unmoved saved]
  exact AccountTable.account?_of_findByAddress attempt.isKey attempt.read

end Attempt

theorem saved_of_commit (run : (traffic calls accounts).Run (before ++ e :: after) s)
    {a : Account} (wrote : e.commit? = some a) : e.found.Saved a e.left := by
  obtain ⟨_, _, -, step, -⟩ := run.at
  have committed := step.commit
  rw [wrote] at committed
  obtain ⟨-, b, done⟩ := committed
  exact (AccountTable.saved_of_save done).1

/-- A commit on an address comes of a look-up after every earlier commit there. -/
theorem looked_since {mid : List Event} {f : Event} {a b : Account}
    (run : (traffic calls accounts).Run (before ++ e :: (mid ++ f :: after)) s)
    (wrote : e.commit? = some a) (wrote' : f.commit? = some b) (same : b.address = a.address) :
    ∃ engine call found first look late, calls[f.call]? = some (engine, call) ∧
      (∃ early, mid = early ++ look :: late) ∧
      Attempt engine call found first look late f b := by
  have whole : before ++ e :: (mid ++ f :: after) = (before ++ e :: mid) ++ f :: after := by simp
  have run' := run
  rw [whole] at run'
  obtain ⟨engine, call, found, first, look, late, named, split, attempt⟩ :=
    attempt_of_run run' (Event.saves_of_commit? wrote')
  have unmoved := attempt.unmoved (saved_of_commit run' wrote')
  have saves := Event.saves_of_commit? wrote
  have notLook : e ≠ look := by
    intro same
    subst same
    rw [attempt.asked] at saves
    cases saves
  refine ⟨engine, call, found, first, look, late, named, ?_, attempt⟩
  rcases List.append_eq_append_iff.mp split with ⟨rest, rfl, tail⟩ | ⟨rest, rfl, tail⟩
  · rcases List.cons_eq_append_iff.mp tail with ⟨rfl, here⟩ | ⟨early, rfl, since⟩
    · exact absurd (List.cons.inj here).1.symm notLook
    · exact ⟨early, since⟩
  · rcases List.cons_eq_append_iff.mp tail with ⟨rfl, here⟩ | ⟨rest, rfl, before⟩
    · exact absurd (List.cons.inj here).1 notLook
    · -- A look-up before the earlier commit found another row.
      have saved := saved_of_commit run wrote
      have later := run.later_between
      rw [List.append_assoc, List.cons_append] at run
      have earlier := run.later_between
      obtain ⟨_, _, -, step, -⟩ := run.at
      have kept := step.tables.2.2
      rw [attempt.asked] at kept
      rw [(AccountTable.Answers.findAccount kept).2] at earlier
      rw [same] at unmoved
      exact absurd unmoved (AccountTable.moved_of_saved earlier saved later)

/-- A call saves once. -/
theorem once_of_run (run : (traffic calls accounts).Run (before ++ e :: after) s)
    {a : Account} (saves : e.exchange.request = .saveAccount a) :
    ∀ f ∈ before, f.call = e.call → ∀ b, f.exchange.request ≠ .saveAccount b := by
  intro f member same b
  obtain ⟨engine, call, -, asks⟩ := asks_of_run run
  rw [saves] at asks
  obtain ⟨source, key, found, mid, told, -, writes⟩ := asks
  have exchanged := Event.exchange_mem_history member
  rw [same, told] at exchanged
  rcases List.mem_append.mp exchanged with opening | rest
  · rcases mem_opened.mp opening with joined | entered
    · rw [joined]
      exact Request.noConfusion
    · rw [entered]
      exact Request.noConfusion
  · rcases List.mem_cons.mp rest with looked | since
    · rw [looked]
      exact Request.noConfusion
    · exact (writes.quiet _ since).1 b

/-- A call that saves commits nothing else. -/
theorem only_of_run (run : (traffic calls accounts).Run (before ++ e :: after) s)
    {a : Account} (saves : e.exchange.request = .saveAccount a) :
    ∀ f ∈ before ++ after, f.call = e.call → f.commit? = none := by
  intro f member own
  cases wrote : f.commit? with
  | none => rfl
  | some c =>
    have saves' := Event.saves_of_commit? wrote
    rcases List.mem_append.mp member with earlier | later
    · exact absurd saves' (once_of_run run saves f earlier own c)
    · obtain ⟨mid, rest, rfl⟩ := List.append_of_mem later
      rw [← List.cons_append, ← List.append_assoc] at run
      exact absurd saves (once_of_run run saves' e (by simp) own.symm a)

/-- A call that has a result has saved. -/
theorem saved_of_reply {events : List Event} (run : (traffic calls accounts).Run events s)
    {i : Nat} {engine : Engine} {call : Call} (named : calls[i]? = some (engine, call))
    {reply : Reply} (done : s.programs[i]? = some (.done (.ok reply))) :
    ∃ before e after a b, events = before ++ e :: after ∧ e.call = i ∧
      e.exchange = ⟨.saveAccount a, .ok b⟩ := by
  have completes := run.ended (started_traffic named) (follows_serve engine call) done
  obtain ⟨early, a, b, late, told⟩ := Completes.saved completes
  obtain ⟨before, e, after, rfl, own, saved, -, -⟩ := Event.of_history told
  exact ⟨before, e, after, a, b, rfl, own, saved⟩

/-- A call that fails for a conflict had its save refused as stale. -/
theorem stale_of_conflict {events : List Event}
    (run : (traffic calls accounts).Run events s)
    {i : Nat} {engine : Engine} {call : Call} (named : calls[i]? = some (engine, call))
    (done : s.programs[i]? = some (.done (.error conflict))) :
    ∃ before e after a detail, events = before ++ e :: after ∧ e.call = i ∧
      e.exchange = ⟨.saveAccount a, .error (.stale detail)⟩ := by
  obtain ⟨early, a, detail, late, told⟩ :=
    run.ended (started_traffic named) (follows_serve engine call) done rfl
  obtain ⟨before, e, after, rfl, own, refused, -, -⟩ := Event.of_history told
  exact ⟨before, e, after, a, detail, rfl, own, refused⟩

end Engine

end Paymaster

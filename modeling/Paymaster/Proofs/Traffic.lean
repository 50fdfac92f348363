import Paymaster.Proofs.Ledger.Saving
import Paymaster.Proofs.Program.History

/-!
# Programs over one accounts table

Programs that share nothing but the accounts table take turns in any order. An event answers
one request of one program: the table decides about look-ups and saves
(`AccountTable.Answers`), and every other answer is free, so locks exclude nobody, the clock
shows any time and the node reports anything. `Traffic.Run` is a run as a list of events.

* `Traffic.Run.reaches`: each program goes on by its own events, so that what holds of all
  its histories (`Program.Follows`) holds of its part of the run (`Traffic.Run.ended`).
* `Traffic.Run.later`: the table after a run is a later one.
-/

namespace Paymaster

/-! ## Answers of the table -/

/-- Faults that tell of another writer. -/
def StoreFault.isStale : StoreFault → Bool
  | .stale _ => true
  | _ => false

namespace AccountTable

/-- The answers that a table allows, each with the table that it leaves. A look-up that has a
result tells the table. A save is atomic: it is done, or it is refused by the table, or it
fails on the way; one that is not heard of in time may have been done. -/
inductive Answers (t : AccountTable) : (r : Request) → r.Answer → AccountTable → Prop
  | found {address : Text} {account? : Option Account} :
    t.findByAddress address = .ok account? → Answers t (.findAccount address) (.ok account?) t
  | notFound {address : Text} (fault : StoreFault) :
    Answers t (.findAccount address) (.error fault) t
  | holder {token : Int} {account? : Option Account} :
    t.findByToken token = .ok account? → Answers t (.findHolder token) (.ok account?) t
  | noHolder {token : Int} (fault : StoreFault) :
    Answers t (.findHolder token) (.error fault) t
  | saved {a b : Account} {t' : AccountTable} :
    t.save a = .ok (t', b) → Answers t (.saveAccount a) (.ok b) t'
  | refused {a : Account} {fault : StoreFault} :
    t.save a = .error fault → Answers t (.saveAccount a) (.error fault) t
  | failed {a : Account} {fault : StoreFault} :
    fault.isStale = false → Answers t (.saveAccount a) (.error fault) t
  | unheard {a b : Account} {t' : AccountTable} :
    t.save a = .ok (t', b) → Answers t (.saveAccount a) (.error .timedOut) t'
  | elsewhere {r : Request} (answer : r.Answer) :
    r.concernsAccounts = false → Answers t r answer t

namespace Answers

variable {t t' : AccountTable}

theorem findAccount {address : Text} {account? : Option Account}
    (answered : t.Answers (.findAccount address) (.ok account?) t') :
    t.findByAddress address = .ok account? ∧ t' = t := by
  cases answered with
  | found read => exact ⟨read, rfl⟩
  | elsewhere _ other => cases other

theorem findHolder {token : Int} {account? : Option Account}
    (answered : t.Answers (.findHolder token) (.ok account?) t') :
    t.findByToken token = .ok account? ∧ t' = t := by
  cases answered with
  | holder read => exact ⟨read, rfl⟩
  | elsewhere _ other => cases other

theorem saveAccount {a b : Account} (answered : t.Answers (.saveAccount a) (.ok b) t') :
    t.save a = .ok (t', b) := by
  cases answered with
  | saved done => exact done
  | elsewhere _ other => cases other

/-- A stale answer is the table's own, and the table stays. -/
theorem stale {a : Account} {detail : Text}
    (answered : t.Answers (.saveAccount a) (.error (.stale detail)) t') :
    t.save a = .error (.stale detail) ∧ t' = t := by
  cases answered with
  | refused verdict => exact ⟨verdict, rfl⟩
  | failed other => cases other
  | elsewhere _ other => cases other

theorem saveAccount_error {a : Account} {fault : StoreFault}
    (answered : t.Answers (.saveAccount a) (.error fault) t') :
    t.save a = .error fault ∨ fault.isStale = false := by
  cases answered with
  | refused verdict => exact .inl verdict
  | failed other => exact .inr other
  | unheard _ => exact .inr rfl
  | elsewhere _ other => cases other

/-- A table is changed by a save only. -/
theorem saved_of_ne {r : Request} {answer : r.Answer} (answered : t.Answers r answer t')
    (changed : t' ≠ t) : ∃ a b, r = .saveAccount a ∧ t.save a = .ok (t', b) := by
  cases answered with
  | saved done => exact ⟨_, _, rfl, done⟩
  | unheard done => exact ⟨_, _, rfl, done⟩
  | _ => exact absurd rfl changed

theorem later {r : Request} {answer : r.Answer} (answered : t.Answers r answer t') :
    t.Later t' := by
  by_cases same : t' = t
  · rw [same]
    exact Later.refl t
  · obtain ⟨a, b, -, done⟩ := answered.saved_of_ne same
    exact (saved_of_save done).1.later

end Answers

end AccountTable

/-! ## Events -/

/-- An answered request of one of several programs, with the table that it found and the one
that it left. -/
structure Event where
  call : Nat
  exchange : Exchange
  found : AccountTable
  left : AccountTable

namespace Event

/-- The account that an event wrote. -/
def commit? (e : Event) : Option Account :=
  match e.exchange.request with
  | .saveAccount a => if e.left = e.found then none else some a
  | _ => none

theorem saves_of_commit? {e : Event} {a : Account} (wrote : e.commit? = some a) :
    e.exchange.request = .saveAccount a := by
  unfold commit? at wrote
  split at wrote
  · rename_i b asked
    split at wrote
    · cases wrote
    · cases wrote
      exact asked
  · cases wrote

/-- The part of one program in a list of events. -/
def history (call : Nat) (events : List Event) : List Exchange :=
  (events.filter fun e => e.call = call).map Event.exchange

@[simp] theorem history_nil (call : Nat) : history call [] = [] := rfl

@[simp] theorem history_append (call : Nat) (before after : List Event) :
    history call (before ++ after) = history call before ++ history call after := by
  simp [history]

theorem history_cons_self (e : Event) (after : List Event) :
    history e.call (e :: after) = e.exchange :: history e.call after := by
  simp [history]

theorem history_cons_of_ne {call : Nat} {e : Event} (other : e.call ≠ call)
    (after : List Event) : history call (e :: after) = history call after := by
  simp [history, other]

theorem exchange_mem_history {e : Event} {events : List Event} (member : e ∈ events) :
    e.exchange ∈ history e.call events :=
  List.mem_map_of_mem (List.mem_filter.mpr ⟨member, by simp⟩)

theorem of_mem_history {call : Nat} {events : List Event} {x : Exchange}
    (member : x ∈ history call events) : ∃ e ∈ events, e.call = call ∧ e.exchange = x := by
  obtain ⟨e, inPart, rfl⟩ := List.mem_map.mp member
  obtain ⟨inRun, own⟩ := List.mem_filter.mp inPart
  exact ⟨e, inRun, by simpa using own, rfl⟩

/-- Every exchange of a program is an event of the run. -/
theorem of_history {call : Nat} {events : List Event} {h : List Exchange} {x : Exchange}
    {g : List Exchange} (split : history call events = h ++ x :: g) :
    ∃ before e after, events = before ++ e :: after ∧ e.call = call ∧ e.exchange = x ∧
      history call before = h ∧ history call after = g := by
  induction events generalizing h with
  | nil => simp at split
  | cons e rest ih =>
    by_cases own : e.call = call
    · subst own
      rw [history_cons_self] at split
      cases h with
      | nil =>
        obtain ⟨same, tail⟩ := List.cons.inj split
        exact ⟨[], e, rest, rfl, rfl, same, rfl, tail⟩
      | cons y h =>
        obtain ⟨same, tail⟩ := List.cons.inj split
        obtain ⟨before, f, after, rfl, called, exchanged, early, late⟩ := ih tail
        refine ⟨e :: before, f, after, rfl, called, exchanged, ?_, late⟩
        rw [history_cons_self, same, early]
    · rw [history_cons_of_ne own] at split
      obtain ⟨before, f, after, rfl, called, exchanged, early, late⟩ := ih split
      exact ⟨e :: before, f, after, rfl, called, exchanged,
        by rw [history_cons_of_ne own, early], late⟩

end Event

/-! ## Runs -/

/-- Programs under way, and the table that they share. -/
structure Traffic (α : Type) where
  programs : List (Program α)
  accounts : AccountTable

namespace Traffic

variable {α : Type}

/-- One request of one program is answered. -/
inductive Step (s : Traffic α) : Event → Traffic α → Prop
  | answer {call : Nat} {r : Request} {next : r.Answer → Program α} {answer : r.Answer}
      {accounts : AccountTable} :
    s.programs[call]? = some (.ask r next) → s.accounts.Answers r answer accounts →
    Step s ⟨call, ⟨r, answer⟩, s.accounts, accounts⟩
      ⟨s.programs.set call (next answer), accounts⟩

/-- Programs take turns, and nobody waits. -/
inductive Run (s : Traffic α) : List Event → Traffic α → Prop
  | refl : Run s [] s
  | step {events : List Event} {s' s'' : Traffic α} {e : Event} :
    Run s events s' → Step s' e s'' → Run s (events ++ [e]) s''

/-! ### What one event does -/

theorem Step.tables {s s' : Traffic α} {e : Event} (step : Step s e s') :
    e.found = s.accounts ∧ e.left = s'.accounts ∧
      e.found.Answers e.exchange.request e.exchange.answer e.left := by
  cases step with
  | answer _ answered => exact ⟨rfl, rfl, answered⟩

/-- What an event wrote was saved; any other event left the table as it was. -/
theorem Step.commit {s s' : Traffic α} {e : Event} (step : Step s e s') :
    match e.commit? with
    | some a => e.exchange.request = .saveAccount a ∧ ∃ b, e.found.save a = .ok (e.left, b)
    | none => e.left = e.found := by
  obtain ⟨-, -, answered⟩ := step.tables
  by_cases same : e.left = e.found
  · have none : e.commit? = none := by
      unfold Event.commit?
      split
      · rw [if_pos same]
      · rfl
    rw [none]
    exact same
  · obtain ⟨a, b, asked, done⟩ := answered.saved_of_ne same
    have some : e.commit? = some a := by
      unfold Event.commit?
      rw [asked]
      exact if_neg same
    rw [some]
    exact ⟨asked, b, done⟩

/-- A save that was answered wrote its account. -/
theorem Step.commit_of_saved {s s' : Traffic α} {e : Event} {a b : Account}
    (step : Step s e s') (answered : e.exchange = ⟨.saveAccount a, .ok b⟩) :
    e.commit? = some a := by
  obtain ⟨call, exchange, found, left⟩ := e
  cases answered
  obtain ⟨-, -, done⟩ := step.tables
  exact if_neg (AccountTable.saved_of_save done.saveAccount).1.ne

/-! ### What a run does -/

theorem Run.trans {s s' s'' : Traffic α} {before after : List Event} (first : Run s before s')
    (second : Run s' after s'') : Run s (before ++ after) s'' := by
  induction second with
  | refl => simpa using first
  | step _ step ih =>
    rw [← List.append_assoc]
    exact ih.step step

/-- A run in two parts. -/
theorem Run.split {s s' : Traffic α} {before after : List Event}
    (run : Run s (before ++ after) s') : ∃ mid, Run s before mid ∧ Run mid after s' := by
  generalize same : before ++ after = events at run
  induction run generalizing after with
  | refl =>
    obtain ⟨rfl, rfl⟩ := List.append_eq_nil_iff.mp same
    exact ⟨s, .refl, .refl⟩
  | step run step ih =>
    rcases List.eq_nil_or_concat after with rfl | ⟨rest, f, rfl⟩
    · rw [List.append_nil] at same
      subst same
      exact ⟨_, run.step step, .refl⟩
    · rw [List.concat_eq_append, ← List.append_assoc] at same
      obtain ⟨init, last⟩ := List.append_inj' same rfl
      obtain ⟨mid, first, second⟩ := ih init
      rw [List.singleton_inj] at last
      subst last
      rw [List.concat_eq_append]
      exact ⟨mid, first, second.step step⟩

/-- A run up to its last event. -/
theorem Run.last {s s' : Traffic α} {before : List Event} {e : Event}
    (run : Run s (before ++ [e]) s') : ∃ mid, Run s before mid ∧ Step mid e s' := by
  generalize same : before ++ [e] = events at run
  cases run with
  | refl => simp at same
  | step run step =>
    obtain ⟨rfl, one⟩ := List.append_inj' same rfl
    cases List.singleton_inj.mp one
    exact ⟨_, run, step⟩

/-- A run at one of its events. -/
theorem Run.at {s s' : Traffic α} {before after : List Event} {e : Event}
    (run : Run s (before ++ e :: after) s') :
    ∃ mid mid', Run s before mid ∧ Step mid e mid' ∧ Run mid' after s' := by
  rw [List.append_cons] at run
  obtain ⟨mid', start, rest⟩ := run.split
  obtain ⟨mid, first, step⟩ := start.last
  exact ⟨mid, mid', first, step, rest⟩

theorem Run.later {s s' : Traffic α} {events : List Event} (run : Run s events s') :
    s.accounts.Later s'.accounts := by
  induction run with
  | refl => exact .refl _
  | step _ step ih =>
    obtain ⟨found, left, answered⟩ := step.tables
    rw [← left]
    exact ih.trans (found ▸ answered.later)

/-- An event finds a later table than an earlier event left. -/
theorem Run.later_between {s s' : Traffic α} {before mid after : List Event} {e f : Event}
    (run : Run s (before ++ e :: (mid ++ f :: after)) s') : e.left.Later f.found := by
  obtain ⟨_, here, -, step, rest⟩ := run.at
  obtain ⟨there, _, between, step', -⟩ := rest.at
  rw [step.tables.2.1, step'.tables.1]
  exact between.later

/-- Each program goes on by its own events. -/
theorem Run.reaches {s s' : Traffic α} {events : List Event} (run : Run s events s')
    {call : Nat} {p : Program α} (started : s.programs[call]? = some p) :
    ∃ q, s'.programs[call]? = some q ∧ p.Reaches (Event.history call events) q := by
  induction run with
  | refl => exact ⟨p, started, .refl⟩
  | step _ step ih =>
    obtain ⟨q, under, reached⟩ := ih
    rw [Event.history_append]
    cases step with
    | answer asked answered =>
      rename_i other r next answer accounts
      by_cases own : other = call
      · subst own
        rw [asked] at under
        cases under
        refine ⟨next answer, ?_, ?_⟩
        · rw [List.getElem?_set_self (List.getElem?_eq_some_iff.mp asked).1]
        · simpa [Event.history] using reached.snoc answer
      · refine ⟨q, ?_, ?_⟩
        · rw [List.getElem?_set_ne own]
          exact under
        · simpa [Event.history, own] using reached

variable {asks : List Exchange → Request → Prop} {ends : List Exchange → α → Prop}

/-- What holds of all histories of a program holds of its result in a run. -/
theorem Run.ended {s s' : Traffic α} {events : List Event} (run : Run s events s')
    {call : Nat} {p : Program α} {result : α} (started : s.programs[call]? = some p)
    (followed : p.Follows asks ends) (done : s'.programs[call]? = some (.done result)) :
    ends (Event.history call events) result := by
  obtain ⟨q, under, reached⟩ := run.reaches started
  rw [done] at under
  cases under
  exact reached.ended followed

theorem Run.length {s s' : Traffic α} {events : List Event} (run : Run s events s') :
    s'.programs.length = s.programs.length := by
  induction run with
  | refl => rfl
  | step _ step ih =>
    cases step
    rw [List.length_set, ih]

/-- A program that is there after a run was there before. -/
theorem Run.present {s s' : Traffic α} {events : List Event} (run : Run s events s')
    {call : Nat} {q : Program α} (under : s'.programs[call]? = some q) :
    ∃ p, s.programs[call]? = some p := by
  have bound := (List.getElem?_eq_some_iff.mp under).1
  rw [run.length] at bound
  exact ⟨s.programs[call], List.getElem?_eq_getElem bound⟩

/-- What holds of the row of an address, and of each row that is written in its place, holds
of it after a run. -/
theorem Run.row_kept {P : Row → Prop} {key : Text} {s s' : Traffic α} {events : List Event}
    (run : Run s events s') (start : ∃ r, s.accounts.row? key = some r ∧ P r)
    (kept : ∀ before e after a r, events = before ++ e :: after → e.commit? = some a →
      a.address = key → e.found.Saved a e.left → e.found.row? key = some r → P r →
      ∃ r', e.left.row? key = some r' ∧ P r') :
    ∃ r, s'.accounts.row? key = some r ∧ P r := by
  induction run with
  | refl => exact start
  | @step events s' s'' e run step ih =>
    obtain ⟨r, stands, holds⟩ := ih fun before e' after a r same =>
      kept before e' (after ++ [e]) a r (by simp [same])
    have committed := step.commit
    obtain ⟨found, left, -⟩ := step.tables
    rw [← found] at stands
    rw [← left]
    cases wrote : e.commit? with
    | none =>
      rw [wrote] at committed
      exact ⟨r, by rw [committed, stands], holds⟩
    | some a =>
      rw [wrote] at committed
      obtain ⟨-, b, done⟩ := committed
      have saved := (AccountTable.saved_of_save done).1
      by_cases own : a.address = key
      · exact kept events e [] a r rfl wrote own saved stands holds
      · exact ⟨r, by rw [saved.others key (Ne.symm own), stands], holds⟩

/-- The row of an address stays if nothing is written there. -/
theorem Run.row_untouched {key : Text} {s s' : Traffic α} {events : List Event}
    (run : Run s events s')
    (untouched : ∀ e ∈ events, ∀ a, e.commit? = some a → a.address ≠ key) :
    s'.accounts.row? key = s.accounts.row? key := by
  induction run with
  | refl => rfl
  | @step events s' s'' e run step ih =>
    have before := ih fun f member => untouched f (by simp [member])
    have committed := step.commit
    obtain ⟨found, left, -⟩ := step.tables
    rw [← before, ← found, ← left]
    cases wrote : e.commit? with
    | none =>
      rw [wrote] at committed
      rw [committed]
    | some a =>
      rw [wrote] at committed
      obtain ⟨-, b, done⟩ := committed
      have other := untouched e (by simp) a wrote
      exact (AccountTable.saved_of_save done).1.others key (Ne.symm other)

theorem Run.numbered {s s' : Traffic α} {events : List Event} (run : Run s events s')
    (numbered : s.accounts.Numbered) : s'.accounts.Numbered := by
  induction run with
  | refl => exact numbered
  | @step events s' s'' e run step ih =>
    obtain ⟨found, left, answered⟩ := step.tables
    rw [← found] at ih
    rw [← left]
    by_cases same : e.left = e.found
    · rw [same]
      exact ih
    · obtain ⟨a, b, -, done⟩ := answered.saved_of_ne same
      exact (AccountTable.saved_of_save done).1.numbered ih

/-! ## Runs by a schedule -/

/-- The turn of a program: what it is told if it asks for the time, for an answer of the node
or for a signature. It is given the locks that it asks for. -/
structure Turn where
  call : Nat
  now : Instant := 0
  node : Except NodeFault Bytes := .error .failed
  signature : Option Signature := none

/-- The answer within a turn, if there is one, and the table afterwards. -/
def Turn.reply (turn : Turn) (t : AccountTable) :
    (r : Request) → Option (r.Answer × AccountTable)
  | .findAccount address => some (t.findByAddress address, t)
  | .findHolder token => some (t.findByToken token, t)
  | .saveAccount a =>
    match t.save a with
    | .ok (t', b) => some (.ok b, t')
    | .error fault => some (.error fault, t)
  | .joinLocks => some (.own turn.call, t)
  | .enterLock _ _ => some (.ok (), t)
  | .leaveLock _ _ => some ((), t)
  | .clock => some (turn.now, t)
  | .callContract _ _ => some (turn.node, t)
  | .sign _ _ => some (turn.signature, t)
  | _ => none

theorem Turn.answers_reply {turn : Turn} {t t' : AccountTable} {r : Request}
    {answer : r.Answer} (replied : turn.reply t r = some (answer, t')) :
    t.Answers r answer t' := by
  cases r with
  | findAccount address =>
    rw [reply] at replied
    rcases read : t.findByAddress address with fault | found
    · rw [read] at replied
      cases replied
      exact .notFound fault
    · rw [read] at replied
      cases replied
      exact .found read
  | findHolder token =>
    rw [reply] at replied
    rcases read : t.findByToken token with fault | found
    · rw [read] at replied
      cases replied
      exact .noHolder fault
    · rw [read] at replied
      cases replied
      exact .holder read
  | saveAccount a =>
    rw [reply] at replied
    rcases verdict : t.save a with fault | ⟨t'', b⟩
    · rw [verdict] at replied
      cases replied
      exact .refused verdict
    · rw [verdict] at replied
      cases replied
      exact .saved verdict
  | _ =>
    cases replied
    try exact .elsewhere _ rfl

/-- The turns of a schedule, one after the other. A program that has ended, or asks for
something else, lets its turn pass. -/
def play (s : Traffic α) : List Turn → List Event × Traffic α
  | [] => ([], s)
  | turn :: rest =>
    match s.programs[turn.call]? with
    | some (.ask r next) =>
      match turn.reply s.accounts r with
      | some (answer, accounts) =>
        let (events, s') := play ⟨s.programs.set turn.call (next answer), accounts⟩ rest
        (⟨turn.call, ⟨r, answer⟩, s.accounts, accounts⟩ :: events, s')
      | none => play s rest
    | _ => play s rest

theorem run_play (s : Traffic α) (schedule : List Turn) :
    Run s (s.play schedule).1 (s.play schedule).2 := by
  induction schedule generalizing s with
  | nil => exact .refl
  | cons turn rest ih =>
    unfold play
    split
    · rename_i r next asked
      split
      · rename_i answer accounts replied
        exact (Run.refl.step (Step.answer asked (Turn.answers_reply replied))).trans (ih _)
      · exact ih s
    · exact ih s

end Traffic

end Paymaster

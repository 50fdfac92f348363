import Paymaster.Proofs.Locks.Sound
import Paymaster.Proofs.Traffic
import Paymaster.Surroundings.Together

/-!
# Programs within a process

Programs that also share the locks within their process. The locks answer what is asked of them
(`ProcessLocks.Answers`, which is how programs that run together are answered:
`Commons.locks_answer?`), and a program that is not given a lock waits. Otherwise a process
goes on as its traffic does (`Process.Run.traffic`).
-/

namespace Paymaster

namespace ProcessLocks

variable {l : ProcessLocks}

@[simp] theorem table_put_self (source : LockSource) (t : LockTable Nat) :
    (l.put source t).table source = t := by
  rw [table, put, Entries.value?, Entries.lookup_put_self, Option.getD_some]

theorem table_put_of_ne {source other : LockSource} (ne : other ≠ source) (t : LockTable Nat) :
    (l.put source t).table other = l.table other := by
  rw [table, put, Entries.value?, Entries.lookup_put_of_ne ne, table]

/-- What holds of every table still does if it holds of the one put in. -/
theorem of_table_put {P : LockSource → LockTable Nat → Prop} {source : LockSource}
    {t : LockTable Nat} (there : P source t) (elsewhere : ∀ other, P other (l.table other))
    (other : LockSource) : P other ((l.put source t).table other) := by
  by_cases same : other = source
  · subst same
    rw [table_put_self]
    exact there
  · rw [table_put_of_ne same]
    exact elsewhere other

@[simp] theorem table_join (source : LockSource) : l.join.2.table source = l.table source := rfl

/-- The answers of the locks to a task, each with the locks that it leaves. -/
inductive Answers (l : ProcessLocks) (task : Nat) : (r : Request) → r.Answer → ProcessLocks → Prop
  | joined : Answers l task .joinLocks l.join.1 l.join.2
  | entered {source : LockSource} {address : Text} :
    (l.enter source task address).1 = true →
    Answers l task (.enterLock source address) (.ok ()) (l.enter source task address).2
  | left {source : LockSource} {address : Text} :
    Answers l task (.leaveLock source address) () (l.leave source task)
  | elsewhere {r : Request} (answer : r.Answer) :
    r.concernsLocks = false → Answers l task r answer l

end ProcessLocks

namespace Commons

variable {c c' : Commons} {task : Nat} {r : Request}

theorem joinLocks_within (within : c.surroundings.usesLockServer = false) :
    c.joinLocks = (c.locks.join.1, { c with locks := c.locks.join.2 }) := by
  unfold joinLocks
  rw [within]
  rfl

theorem answer?_enterLock {source : LockSource} (within : source ≠ .server) (address : Text) :
    c.answer? task (.enterLock source address) =
      (if (c.locks.enter source task address).1 then some (.ok ()) else none,
        { c with locks := (c.locks.enter source task address).2 }) := by
  cases source with
  | server => exact absurd rfl within
  | _ => rfl

/-- Programs that run together without a lock server are answered by their locks. -/
theorem locks_answer? (within : c.surroundings.usesLockServer = false)
    (here : ∀ address, r ≠ .enterLock .server address ∧ r ≠ .leaveLock .server address)
    {answer : r.Answer} (answered : c.answer? task r = (some answer, c')) :
    c.locks.Answers task r answer c'.locks := by
  cases r with
  | joinLocks =>
    have told : c.answer? task .joinLocks = (some c.joinLocks.1, c.joinLocks.2) := rfl
    rw [told, joinLocks_within within] at answered
    cases answered
    exact .joined
  | enterLock source address =>
    have notServer : source ≠ .server := fun same => (here address).1 (by rw [same])
    rw [answer?_enterLock notServer] at answered
    by_cases inside : (c.locks.enter source task address).1 = true
    · rw [if_pos inside] at answered
      cases answered
      exact .entered inside
    · rw [if_neg inside] at answered
      cases answered
  | leaveLock source address =>
    cases source with
    | server => exact absurd rfl (here address).2
    | _ =>
      cases answered
      exact .left
  | _ =>
    cases answered
    exact .elsewhere _ rfl

end Commons

/-! ## Processes -/

/-- Programs of one process under way, with the locks that they share. -/
structure Process (α : Type) where
  traffic : Traffic α
  locks : ProcessLocks

namespace Process

variable {α : Type}

/-- A program goes on, or it comes to a lock and waits. -/
inductive Step (p : Process α) : Option Event → Process α → Prop
  | go {e : Event} {s : Traffic α} {l : ProcessLocks} :
    p.traffic.Step e s → p.locks.Answers e.call e.exchange.request e.exchange.answer l →
    Step p (some e) ⟨s, l⟩
  | wait {call : Nat} {source : LockSource} {address : Text}
      {next : Request.Answer (.enterLock source address) → Program α} :
    p.traffic.programs[call]? = some (.ask (.enterLock source address) next) →
    (p.locks.enter source call address).1 = false →
    Step p none ⟨p.traffic, (p.locks.enter source call address).2⟩

/-- A program whose request the locks answer goes on. -/
theorem step_of_answers {p : Process α} {i : Nat} {r : Request} {next : r.Answer → Program α}
    {answer : r.Answer} {l : ProcessLocks} (asked : p.traffic.programs[i]? = some (.ask r next))
    (other : r.concernsAccounts = false) (answers : p.locks.Answers i r answer l) :
    p.Step (some ⟨i, ⟨r, answer⟩, p.traffic.accounts, p.traffic.accounts⟩)
      ⟨⟨p.traffic.programs.set i (next answer), p.traffic.accounts⟩, l⟩ :=
  .go (.answer asked (.elsewhere _ other)) answers

/-- Programs take turns in any order. -/
inductive Run (p : Process α) : List Event → Process α → Prop
  | refl : Run p [] p
  | step {events : List Event} {p' p'' : Process α} {e? : Option Event} :
    Run p events p' → Step p' e? p'' → Run p (events ++ e?.toList) p''

/-- The traffic of a process. -/
theorem Run.traffic {p p' : Process α} {events : List Event} (run : Run p events p') :
    p.traffic.Run events p'.traffic := by
  induction run with
  | refl => exact .refl
  | step _ step ih =>
    cases step with
    | go step _ => exact ih.step step
    | wait _ _ =>
      rw [Option.toList_none, List.append_nil]
      exact ih

theorem Run.trans {p p' p'' : Process α} {before after : List Event} (first : Run p before p')
    (second : Run p' after p'') : Run p (before ++ after) p'' := by
  induction second with
  | refl => simpa using first
  | step _ step ih =>
    rw [← List.append_assoc]
    exact ih.step step

/-- The events of a run up to some moment are those of a run. -/
theorem Run.start {p p' : Process α} {before after : List Event}
    (run : Run p (before ++ after) p') : ∃ mid, Run p before mid := by
  generalize same : before ++ after = events at run
  induction run generalizing after with
  | refl =>
    obtain ⟨rfl, -⟩ := List.append_eq_nil_iff.mp same
    exact ⟨p, .refl⟩
  | @step events p' p'' e? run step ih =>
    cases e? with
    | none => exact ih (by simpa using same)
    | some e =>
      rcases List.eq_nil_or_concat after with rfl | ⟨rest, f, rfl⟩
      · rw [List.append_nil] at same
        subst same
        exact ⟨_, run.step step⟩
      · rw [List.concat_eq_append, ← List.append_assoc] at same
        exact ih (List.append_inj' same rfl).1

/-! ## Runs by a schedule -/

/-- The answer within a turn, if there is one, and the table and the locks afterwards. -/
def reply (p : Process α) (turn : Traffic.Turn) :
    (r : Request) → Option (r.Answer × AccountTable × ProcessLocks)
  | .joinLocks => some (p.locks.join.1, p.traffic.accounts, p.locks.join.2)
  | .enterLock source address =>
    let (inside, l) := p.locks.enter source turn.call address
    if inside then some (.ok (), p.traffic.accounts, l) else none
  | .leaveLock source _ => some ((), p.traffic.accounts, p.locks.leave source turn.call)
  | r => (turn.reply p.traffic.accounts r).map fun (answer, t) => (answer, t, p.locks)

theorem answers_reply {p : Process α} {turn : Traffic.Turn} {r : Request} {answer : r.Answer}
    {t : AccountTable} {l : ProcessLocks} (replied : p.reply turn r = some (answer, t, l)) :
    p.traffic.accounts.Answers r answer t ∧ p.locks.Answers turn.call r answer l := by
  have others (notLocks : r.concernsLocks = false)
      (told : (turn.reply p.traffic.accounts r).map
        (fun (answer, t) => (answer, t, p.locks)) = some (answer, t, l)) :
      p.traffic.accounts.Answers r answer t ∧ p.locks.Answers turn.call r answer l := by
    obtain ⟨⟨answer', t'⟩, within, same⟩ := Option.map_eq_some_iff.mp told
    cases same
    exact ⟨Traffic.Turn.answers_reply within, .elsewhere _ notLocks⟩
  cases r with
  | joinLocks =>
    cases replied
    exact ⟨.elsewhere _ rfl, .joined⟩
  | enterLock source address =>
    rw [reply] at replied
    rcases comes : p.locks.enter source turn.call address with ⟨inside, l'⟩
    cases inside with
    | false =>
      rw [comes] at replied
      cases replied
    | true =>
      have held : (p.locks.enter source turn.call address).1 = true := by rw [comes]
      have answers := ProcessLocks.Answers.entered held
      rw [comes] at replied answers
      cases replied
      exact ⟨.elsewhere _ rfl, answers⟩
  | leaveLock source address =>
    cases replied
    exact ⟨.elsewhere _ rfl, .left⟩
  | _ => exact others rfl replied

/-- The turns of a schedule, one after the other. A program that has ended or has to wait lets
its turn pass. -/
def play (p : Process α) : List Traffic.Turn → List Event × Process α
  | [] => ([], p)
  | turn :: rest =>
    match p.traffic.programs[turn.call]? with
    | some (.ask r next) =>
      match p.reply turn r with
      | some (answer, accounts, locks) =>
        let (events, p') :=
          play ⟨⟨p.traffic.programs.set turn.call (next answer), accounts⟩, locks⟩ rest
        (⟨turn.call, ⟨r, answer⟩, p.traffic.accounts, accounts⟩ :: events, p')
      | none => play p rest
    | _ => play p rest

theorem run_play (p : Process α) (schedule : List Traffic.Turn) :
    Run p (p.play schedule).1 (p.play schedule).2 := by
  induction schedule generalizing p with
  | nil => exact .refl
  | cons turn rest ih =>
    unfold play
    split
    · rename_i r next asked
      split
      · rename_i answer accounts locks replied
        obtain ⟨answers, locked⟩ := answers_reply replied
        have step : Step p (some ⟨turn.call, ⟨r, answer⟩, p.traffic.accounts, accounts⟩) _ :=
          .go (.answer asked answers) locked
        exact (Run.refl.step step).trans (ih _)
      · exact ih p
    · exact ih p

end Process

end Paymaster

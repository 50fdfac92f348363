import Paymaster.Proofs.Ledger.World
import Paymaster.Proofs.Traffic

/-!
# Programs under terms

Terms are what the surroundings of a program keep to in their answers and what the program
keeps to in its requests. A program keeps to terms if it asks nothing else and ends as it
should as long as it is told nothing else (`Program.Keeps`, `Action.Keeps`): a condition on each
exchange by itself, where `Program.Follows` looks at the history. One rule for each way to build
a program computes it.

An invariant of the state that answers the requests makes the surroundings keep to their part:
of a program that runs alone (`Program.Keeps.run`), and of programs that take turns over the
accounts table (`Traffic.Run.keeps`).
-/

namespace Paymaster

structure Terms where
  /-- What a program may be told. -/
  told : Exchange → Prop
  /-- What a program may ask. -/
  asks : Request → Prop

namespace Program

variable {α β : Type} {terms : Terms}

/-- A program that keeps to terms as long as its surroundings do. -/
def Keeps (terms : Terms) (ends : α → Prop) : Program α → Prop
  | .done a => ends a
  | .ask r next => terms.asks r ∧
    ∀ answer, terms.told ⟨r, answer⟩ → (next answer).Keeps terms ends

@[simp] theorem keeps_done {ends : α → Prop} (a : α) :
    (Program.done a).Keeps terms ends ↔ ends a := Iff.rfl

theorem keeps_bind {ends : α → Prop} (p : Program β) (f : β → Program α) :
    (p.bind f).Keeps terms ends ↔ p.Keeps terms fun b => (f b).Keeps terms ends := by
  induction p with
  | done b => rfl
  | ask r next ih => simp only [bind, Keeps, ih]

theorem keeps_map {ends : α → Prop} (f : β → α) (p : Program β) :
    (f <$> p).Keeps terms ends ↔ p.Keeps terms fun b => ends (f b) := by
  rw [map_eq_pure_bind, bind_def, keeps_bind]
  rfl

theorem Keeps.mono {ends ends' : α → Prop} {p : Program α} (keeps : p.Keeps terms ends)
    (le : ∀ a, ends a → ends' a) : p.Keeps terms ends' := by
  induction p with
  | done a => exact le a keeps
  | ask r next ih => exact ⟨keeps.1, fun answer told => ih answer (keeps.2 answer told)⟩

/-- A lock that is asked for is given back or is not given; the program inside runs only with
it. -/
theorem keeps_hold {ends : Except LockFault α → Prop} {source : LockSource} {address : Text}
    {body : Program α} (enters : terms.asks (.enterLock source address))
    (leaves : terms.asks (.leaveLock source address)) (refused : ∀ fault, ends (.error fault))
    (inside : body.Keeps terms fun a => ends (.ok a)) :
    (hold source address body).Keeps terms ends := by
  refine ⟨enters, fun answer _ => ?_⟩
  cases answer with
  | error fault => exact refused fault
  | ok u =>
    refine (keeps_bind body _).mpr (inside.mono fun a ended => ?_)
    exact ⟨leaves, fun _ _ => ended⟩

/-! ## Running under terms -/

/-- A program that runs alone keeps to its terms if an invariant makes the answers do so. -/
theorem Keeps.run {σ : Type} {ends : α → Prop} {p : Program α} (keeps : p.Keeps terms ends)
    {answer : (r : Request) → σ → r.Answer × σ} {inv : σ → Prop}
    (kept : ∀ r s, inv s → terms.asks r →
      terms.told ⟨r, (answer r s).1⟩ ∧ inv (answer r s).2)
    {s : σ} (start : inv s) : ends (p.run answer s).1 ∧ inv (p.run answer s).2 := by
  induction p generalizing s with
  | done a => exact ⟨keeps, start⟩
  | ask r next ih =>
    obtain ⟨told, after⟩ := kept r s start keeps.1
    exact ih _ (keeps.2 _ told) after

end Program

/-- Programs that take turns keep to their terms if an invariant of the table makes all answers
do so, and the table keeps the invariant. -/
theorem Traffic.Run.keeps {α : Type} {terms : Terms} {inv : AccountTable → Prop}
    {ends : Nat → α → Prop} {s s' : Traffic α} {events : List Event} (run : s.Run events s')
    (kept : ∀ e ∈ events, inv e.found → terms.asks e.exchange.request →
      e.found.Answers e.exchange.request e.exchange.answer e.left →
      terms.told e.exchange ∧ inv e.left)
    (start : inv s.accounts)
    (keeps : ∀ i (p : Program α), s.programs[i]? = some p → p.Keeps terms (ends i)) :
    inv s'.accounts ∧
      ∀ i (p : Program α), s'.programs[i]? = some p → p.Keeps terms (ends i) := by
  induction run with
  | refl => exact ⟨start, keeps⟩
  | @step events s' s'' e run step ih =>
    obtain ⟨holds, each⟩ := ih fun f member => kept f (List.mem_append_left _ member)
    have last := kept e (by simp)
    cases step with
    | @answer call r next answer accounts asked answered =>
      obtain ⟨asks, onward⟩ := each call _ asked
      obtain ⟨told, after⟩ := last holds asks answered
      refine ⟨after, fun i p under => ?_⟩
      by_cases own : call = i
      · subst own
        rw [List.getElem?_set_self (List.getElem?_eq_some_iff.mp asked).1] at under
        cases under
        exact onward answer told
      · rw [List.getElem?_set_ne own] at under
        exact each i p under

/-! ## Actions -/

namespace Action

variable {α β : Type} {terms : Terms} {fails : Failure → Prop}

/-- How an action may end. -/
def Ends (fails : Failure → Prop) (ends : α → Prop) : Except Failure α → Prop
  | .ok a => ends a
  | .error e => fails e

theorem Ends.mono {ends ends' : α → Prop} {outcome : Except Failure α}
    (ended : Ends fails ends outcome) (le : ∀ a, ends a → ends' a) : Ends fails ends' outcome := by
  cases outcome with
  | ok a => exact le a ended
  | error e => exact ended

/-- What ends as it should may go on with what ends as it should. -/
theorem ends_bind {ends : β → Prop} {outcome : Except Failure α} {f : α → Except Failure β}
    (ended : Ends fails (fun a => Ends fails ends (f a)) outcome) :
    Ends fails ends (outcome >>= f) := by
  cases outcome with
  | ok a => exact ended
  | error e => exact ended

/-- An action that keeps to terms as long as its surroundings do, and then fails and ends as it
should. -/
def Keeps (terms : Terms) (fails : Failure → Prop) (ends : α → Prop) (x : Action α) : Prop :=
  x.run.Keeps terms (Ends fails ends)

theorem keeps_pure {ends : α → Prop} {a : α} (ended : ends a) :
    (pure a : Action α).Keeps terms fails ends := ended

theorem keeps_throw {ends : α → Prop} {e : Failure} (failed : fails e) :
    (throw e : Action α).Keeps terms fails ends := failed

theorem keeps_ofExcept {ends : α → Prop} {outcome : Except Failure α}
    (ended : Ends fails ends outcome) : (ofExcept outcome).Keeps terms fails ends := ended

theorem keeps_request {r : Request} {ends : r.Answer → Prop} (asked : terms.asks r)
    (told : ∀ answer, terms.told ⟨r, answer⟩ → ends answer) :
    (request r).Keeps terms fails ends :=
  ⟨asked, told⟩

theorem keeps_bind {ends : β → Prop} {x : Action α} {f : α → Action β}
    (keeps : x.Keeps terms fails fun a => (f a).Keeps terms fails ends) :
    (x >>= f).Keeps terms fails ends := by
  rw [Keeps, ExceptT.run_bind]
  refine (Program.keeps_bind x.run _).mpr (Program.Keeps.mono keeps fun o ended => ?_)
  cases o with
  | ok a => exact ended
  | error e => exact ended

theorem Keeps.mono {ends ends' : α → Prop} {x : Action α} (keeps : x.Keeps terms fails ends)
    (le : ∀ a, ends a → ends' a) : x.Keeps terms fails ends' :=
  Program.Keeps.mono keeps fun _ ended => ended.mono le

theorem keeps_hold {ends : α → Prop} {source : LockSource} {address : Text} {body : Action α}
    (enters : terms.asks (.enterLock source address))
    (leaves : terms.asks (.leaveLock source address))
    (refused : ∀ fault : LockFault, fails (.rpc fault.toError))
    (inside : body.Keeps terms fails ends) :
    (hold source address body).Keeps terms fails ends := by
  unfold Keeps hold
  rw [ExceptT.run_mk, Program.keeps_map]
  exact Program.keeps_hold enters leaves refused inside

end Action

end Paymaster

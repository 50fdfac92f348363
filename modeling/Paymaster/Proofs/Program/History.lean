import Paymaster.Program.Action

/-!
# Histories of programs

A history lists the requests of a program with the answers that they got. `Program.Reaches`
says how far a program has come after a history. `Program.Follows` is a condition on all
histories at once: which request may come after which history, and which result may end it.
It is computed along the program, one rule for each way to build a program
(`Program.follows_bind`, `Action.follows_bind`, `Action.follows_hold`), and holds of every
history that the program really gets (`Program.Reaches.follows`).
-/

namespace Paymaster

/-- Requests about accounts. -/
def Request.concernsAccounts : Request → Bool
  | .findAccount _ | .findHolder _ | .saveAccount _ => true
  | _ => false

/-- Requests about locks. -/
def Request.concernsLocks : Request → Bool
  | .joinLocks | .enterLock _ _ | .leaveLock _ _ => true
  | _ => false

/-- Requests that count something. -/
def Request.counts : Request → Bool
  | .recordCall _ _ | .recordSponsorship _ | .recordGrant => true
  | _ => false

/-- A request with the answer that it got. -/
structure Exchange where
  request : Request
  answer : request.Answer

namespace Program

variable {α β : Type}

/-! ## How far a program has come -/

/-- After a history of answers a program goes on as another one. -/
inductive Reaches : Program α → List Exchange → Program α → Prop
  | refl {p : Program α} : Reaches p [] p
  | ask {r : Request} {next : r.Answer → Program α} {answer : r.Answer}
      {h : List Exchange} {q : Program α} :
      Reaches (next answer) h q → Reaches (.ask r next) (⟨r, answer⟩ :: h) q

/-- One more answer. -/
theorem Reaches.snoc {p : Program α} {h : List Exchange} {r : Request}
    {next : r.Answer → Program α} (reached : Reaches p h (.ask r next)) (answer : r.Answer) :
    Reaches p (h ++ [⟨r, answer⟩]) (next answer) := by
  generalize asked : Program.ask r next = q at reached
  induction reached with
  | refl =>
    subst asked
    exact .ask .refl
  | ask _ ih => exact .ask (ih asked)

/-! ## Conditions on all histories -/

/-- Every request that a program makes is allowed after the history up to it, and every
result that it ends with is allowed after its whole history. -/
def Follows (asks : List Exchange → Request → Prop) (ends : List Exchange → α → Prop) :
    Program α → Prop
  | .done a => ends [] a
  | .ask r next =>
    asks [] r ∧ ∀ answer,
      (next answer).Follows (fun h => asks (⟨r, answer⟩ :: h)) (fun h => ends (⟨r, answer⟩ :: h))

variable {asks asks' : List Exchange → Request → Prop} {ends ends' : List Exchange → α → Prop}

@[simp] theorem follows_done (a : α) : (Program.done a).Follows asks ends ↔ ends [] a := Iff.rfl

@[simp] theorem follows_ask (r : Request) (next : r.Answer → Program α) :
    (Program.ask r next).Follows asks ends ↔
      asks [] r ∧ ∀ answer, (next answer).Follows (fun h => asks (⟨r, answer⟩ :: h))
        (fun h => ends (⟨r, answer⟩ :: h)) := Iff.rfl

/-- A program in two parts: the second one goes on with the history of the first. -/
theorem follows_bind (p : Program β) (f : β → Program α) :
    (p.bind f).Follows asks ends ↔
      p.Follows asks fun h b =>
        (f b).Follows (fun g => asks (h ++ g)) (fun g => ends (h ++ g)) := by
  induction p generalizing asks ends with
  | done b => rfl
  | ask r next ih => simp only [bind, follows_ask, ih, List.cons_append]

/-- A program whose result is passed on in another form. -/
theorem follows_map (f : β → α) (p : Program β) :
    (f <$> p).Follows asks ends ↔ p.Follows asks fun h b => ends h (f b) := by
  rw [map_eq_pure_bind, bind_def, follows_bind]
  simp

theorem Follows.mono {p : Program α} (followed : p.Follows asks ends)
    (asksLe : ∀ h r, asks h r → asks' h r) (endsLe : ∀ h a, ends h a → ends' h a) :
    p.Follows asks' ends' := by
  induction p generalizing asks asks' ends ends' with
  | done a => exact endsLe [] a followed
  | ask r next ih =>
    exact ⟨asksLe [] r followed.1, fun answer =>
      ih answer (followed.2 answer) (fun h => asksLe _) (fun h => endsLe _)⟩

/-- What a program that runs inside a hold has to satisfy: when it ends the lock is given
back. -/
def Inside (asks : List Exchange → Request → Prop) (ends : List Exchange → α → Prop)
    (source : LockSource) (address : Text) (h : List Exchange) (a : α) : Prop :=
  asks (⟨.enterLock source address, .ok ()⟩ :: h) (.leaveLock source address) ∧
    ends (⟨.enterLock source address, .ok ()⟩ :: h ++ [⟨.leaveLock source address, ()⟩]) a

/-- A program inside a hold: the lock is asked for first, and unless it is refused, the
program runs and the lock is given back. -/
theorem follows_hold {ends : List Exchange → Except LockFault α → Prop} (source : LockSource)
    (address : Text) (body : Program α) :
    (hold source address body).Follows asks ends ↔
      asks [] (.enterLock source address) ∧
      (∀ fault : LockFault, ends [⟨.enterLock source address, .error fault⟩] (.error fault)) ∧
      body.Follows (fun h => asks (⟨.enterLock source address, .ok ()⟩ :: h))
        (Inside asks (fun h a => ends h (.ok a)) source address) := by
  constructor
  · intro given
    rcases given with ⟨asked, followed⟩
    refine ⟨asked, fun fault => followed (.error fault), ?_⟩
    apply ((follows_bind body _).mp (followed (.ok ()))).mono (fun _ _ => id)
    intro h a given
    rcases given with ⟨leaves, ended⟩
    exact ⟨by simpa using leaves, ended ()⟩
  · intro given
    rcases given with ⟨asked, refused, inside⟩
    refine ⟨asked, fun answer => ?_⟩
    cases answer with
    | error fault => exact refused fault
    | ok u =>
      refine (follows_bind body _).mpr (inside.mono (fun _ _ => id) ?_)
      intro h a given
      rcases given with ⟨leaves, ended⟩
      exact ⟨by simpa using leaves, fun _ => ended⟩

/-- When a program ends, every request of its history was allowed after what came before. -/
theorem Follows.visited {p : Program α} (followed : p.Follows asks ends) :
    p.Follows asks fun h a =>
      ends h a ∧ ∀ before x after, h = before ++ x :: after → asks before x.request := by
  induction p generalizing asks ends with
  | done a => exact ⟨followed, fun before x after same => by simp at same⟩
  | ask r next ih =>
    refine ⟨followed.1, fun answer => (ih answer (followed.2 answer)).mono (fun _ _ => id) ?_⟩
    intro h a given
    rcases given with ⟨ended, earlier⟩
    refine ⟨ended, fun before x after same => ?_⟩
    cases before with
    | nil =>
      cases same
      exact followed.1
    | cons y before =>
      cases same
      exact earlier before x after rfl

/-- A condition on all histories holds of the rest of a program as well. -/
theorem Reaches.follows {p q : Program α} {h : List Exchange} (reached : Reaches p h q)
    (followed : p.Follows asks ends) :
    q.Follows (fun g => asks (h ++ g)) (fun g => ends (h ++ g)) := by
  induction reached generalizing asks ends with
  | refl => exact followed
  | ask _ ih => exact ih (followed.2 _)

/-- The next request of a program is allowed after its history. -/
theorem Reaches.asked {p : Program α} {h : List Exchange} {r : Request}
    {next : r.Answer → Program α} (reached : Reaches p h (.ask r next))
    (followed : p.Follows asks ends) : asks h r := by
  simpa using (reached.follows followed).1

/-- The result of a program is allowed after its history. -/
theorem Reaches.ended {p : Program α} {h : List Exchange} {a : α}
    (reached : Reaches p h (.done a)) (followed : p.Follows asks ends) : ends h a := by
  simpa using reached.follows followed

end Program

/-! ## Actions -/

namespace Action

variable {α β : Type} {asks : List Exchange → Request → Prop}
  {ends : List Exchange → Except Failure β → Prop}

/-- What a step of an action that has a result goes on with, and how one without ends. -/
def Onward (asks : List Exchange → Request → Prop)
    (ends : List Exchange → Except Failure β → Prop) (f : α → Action β) (h : List Exchange) :
    Except Failure α → Prop
  | .ok a => (f a).run.Follows (fun g => asks (h ++ g)) (fun g => ends (h ++ g))
  | .error e => ends h (.error e)

theorem follows_bind (x : Action α) (f : α → Action β) :
    (x >>= f).run.Follows asks ends ↔ x.run.Follows asks (Onward asks ends f) := by
  have parts : (x >>= f).run = x.run.bind fun o => match o with
      | .ok a => (f a).run
      | .error e => .done (.error e) := by
    rw [ExceptT.run_bind]
    exact congrArg x.run.bind (funext fun o => by cases o <;> rfl)
  rw [parts, Program.follows_bind]
  constructor
  all_goals
    intro followed
    refine followed.mono (fun _ _ => id) fun h o ended => ?_
    cases o with
    | ok a => exact ended
    | error e => simpa [Onward] using ended

@[simp] theorem follows_pure (a : β) :
    (pure a : Action β).run.Follows asks ends ↔ ends [] (.ok a) := Iff.rfl

@[simp] theorem follows_throw (e : Failure) :
    (throw e : Action β).run.Follows asks ends ↔ ends [] (.error e) := Iff.rfl

@[simp] theorem follows_ofExcept (e : Except Failure β) :
    (ofExcept e).run.Follows asks ends ↔ ends [] e := Iff.rfl

theorem follows_request (r : Request) {ends : List Exchange → Except Failure r.Answer → Prop} :
    (request r).run.Follows asks ends ↔
      asks [] r ∧ ∀ answer, ends [⟨r, answer⟩] (.ok answer) := Iff.rfl

/-- An action inside a hold: the lock is asked for first, and unless it is refused, the
action runs and the lock is given back. -/
theorem follows_hold (source : LockSource) (address : Text) (body : Action β) :
    (hold source address body).run.Follows asks ends ↔
      asks [] (.enterLock source address) ∧
      (∀ fault : LockFault, ends [⟨.enterLock source address, .error fault⟩]
        (.error (.rpc fault.toError))) ∧
      body.run.Follows (fun h => asks (⟨.enterLock source address, .ok ()⟩ :: h))
        (Program.Inside asks ends source address) := by
  rw [hold, ExceptT.run_mk, Program.follows_map, Program.follows_hold]
  rfl

end Action

end Paymaster

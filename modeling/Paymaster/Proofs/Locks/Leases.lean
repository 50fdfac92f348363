import Paymaster.Proofs.Locks.Server
import Paymaster.Proofs.Program.History

/-!
# Leases of a lock server

Calls of any number of workers hold the locks of addresses at one lock server, between which
time passes (`Fleet.Run`).

* `Hold.Advances.reaches`: what a call does against the server is what its program does, which
  sees of an attempt the verdict and of a release nothing.
* `Hold.Advances.course`: where a call stands tells its whole history.
* `Fleet.Sound`: a call inside has its lease at the server until the lease runs out, and of two
  calls inside one lock the earlier lease ran out before the later one was given.
* `Fleet.leases_kept`: all of this for every run.
-/

namespace Paymaster

/-! ## Calls -/

/-- A call that holds the lock of an address at a lock server. What its body asks is answered
in any way, so that a hold within a body is a call of its own. -/
structure Hold (α : Type) where
  address : Text
  body : Action α
  /-- How long its lease runs. -/
  lifetime : Nat

namespace Hold

variable {α : Type}

/-- What happens to a call. -/
inductive Happening where
  | acquired (answer : Except Text Bool)
  /-- A request of the body is answered. -/
  | asked (x : Exchange)
  | released (answer : Except Text Unit)

inductive Stage (α : Type) where
  | asking
  | refused (fault : LockFault)
  /-- The lease was given at a time; the rest of the body is still to run. -/
  | inside (since : Nat) (rest : Program (Except Failure α))
  | ended (outcome : Except Failure α)

/-- Where a call stands after its attempt to take the lease. -/
def Stage.entered (since : Nat) (body : Action α) : Except LockFault Unit → Stage α
  | .ok () => .inside since body.run
  | .error fault => .refused fault

/-- One happening of a call at a time. -/
inductive Advance (hold : Hold α) (now : Nat) : Stage α → Happening → Stage α → Prop
  | acquired (answer : Except Text Bool) :
    Advance hold now .asking (.acquired answer) (.entered now hold.body (Lease.verdict answer))
  | asked {since : Nat} {r : Request} {next : r.Answer → Program (Except Failure α)}
      (answer : r.Answer) :
    Advance hold now (.inside since (.ask r next)) (.asked ⟨r, answer⟩)
      (.inside since (next answer))
  | released {since : Nat} {outcome : Except Failure α} (answer : Except Text Unit) :
    Advance hold now (.inside since (.done outcome)) (.released answer) (.ended outcome)

/-- How far a call has come by what happened to it. -/
inductive Advances (hold : Hold α) : List Happening → Stage α → Prop
  | refl : Advances hold [] .asking
  | step {history : List Happening} {stage stage' : Stage α} {x : Happening} {now : Nat} :
    Advances hold history stage → hold.Advance now stage x stage' →
    Advances hold (history ++ [x]) stage'

/-! ### The program of a call -/

def program (hold : Hold α) : Program (Except Failure α) :=
  (Action.hold .server hold.address hold.body).run

/-- What is left of the program of a call. -/
def rest (hold : Hold α) : Stage α → Program (Except Failure α)
  | .asking => hold.program
  | .refused fault => .done (.error (.rpc fault.toError))
  | .inside _ body => Action.outcomeOfHold <$> body.bind fun outcome =>
      .ask (.leaveLock .server hold.address) fun _ => .done (.ok outcome)
  | .ended outcome => .done outcome

/-- What the program of a call sees of a happening. -/
def seen (hold : Hold α) : Happening → Exchange
  | .acquired answer => ⟨.enterLock .server hold.address, Lease.verdict answer⟩
  | .asked x => x
  | .released _ => ⟨.leaveLock .server hold.address, ()⟩

variable {hold : Hold α} {history : List Happening} {stage : Stage α}

/-- A call goes on as its program does. -/
theorem Advance.rest {stage' : Stage α} {x : Happening} {now : Nat}
    (advance : hold.Advance now stage x stage') {h : List Exchange}
    (reached : hold.program.Reaches h (hold.rest stage)) :
    hold.program.Reaches (h ++ [hold.seen x]) (hold.rest stage') := by
  cases advance with
  | acquired answer =>
    have next := reached.snoc (r := .enterLock .server hold.address) (Lease.verdict answer)
    rcases answer with detail | _ | _ <;> exact next
  | asked answer => exact reached.snoc answer
  | released answer => exact reached.snoc (r := .leaveLock .server hold.address) ()

theorem Advances.reaches (advances : hold.Advances history stage) :
    hold.program.Reaches (history.map hold.seen) (hold.rest stage) := by
  induction advances with
  | refl => exact .refl
  | step _ advance ih =>
    rw [List.map_append]
    exact advance.rest ih

/-! ### The course of a call -/

/-- A call that is not given its lease has come to its end, with an internal error. Any other
one runs its body, and ends as the body did, whatever the release answers. -/
inductive Course (hold : Hold α) : List Happening → Stage α → Prop
  | asking : Course hold [] .asking
  | refused {answer : Except Text Bool} {fault : LockFault} :
    Lease.verdict answer = .error fault → Course hold [.acquired answer] (.refused fault)
  | inside {since : Nat} {h : List Exchange} {rest : Program (Except Failure α)} :
    hold.body.run.Reaches h rest →
    Course hold (.acquired (.ok true) :: h.map .asked) (.inside since rest)
  | ended {h : List Exchange} {outcome : Except Failure α} (answer : Except Text Unit) :
    hold.body.run.Reaches h (.done outcome) →
    Course hold (.acquired (.ok true) :: h.map .asked ++ [.released answer]) (.ended outcome)

theorem Course.advance {stage' : Stage α} {x : Happening} {now : Nat}
    (course : hold.Course history stage) (advance : hold.Advance now stage x stage') :
    hold.Course (history ++ [x]) stage' := by
  cases advance with
  | acquired answer =>
    cases course
    rcases answer with detail | _ | _
    · exact .refused rfl
    · exact .refused rfl
    · exact .inside .refl
  | asked answer =>
    cases course with
    | inside reached => simpa using Course.inside (reached.snoc answer)
  | released answer =>
    cases course with
    | inside reached => exact .ended answer reached

theorem Advances.course (advances : hold.Advances history stage) :
    hold.Course history stage := by
  induction advances with
  | refl => exact .asking
  | step _ advance ih => exact ih.advance advance

end Hold

/-! ## Runs -/

/-- The calls of all workers under way at one lock server. -/
structure Fleet (server : Lease.Server) (ι α : Type) where
  state : server.State
  stage : ι → Hold.Stage α

namespace Fleet

open Hold (Happening)

variable {server : Lease.Server} {ι α : Type}

/-- The fleet before any call asked for its lease. -/
def start (s : server.State) : Fleet server ι α :=
  ⟨s, fun _ => .asking⟩

/-- What the lock server does at a happening of a call. -/
def Serves (server : Lease.Server) (hold : Hold α) (token : Text) (s : server.State) :
    Happening → server.State → Prop
  | .acquired answer => server.acquire s (Lease.key hold.address) token hold.lifetime answer
  | .asked _ => fun s' => s' = s
  | .released answer => server.release s (Lease.key hold.address) token answer

/-! ### Leases at the server -/

variable {calls : ι → Hold α} {token : ι → Text} {f : Fleet server ι α}

/-- The calls that are inside, and the leases at the server. -/
structure Sound (calls : ι → Hold α) (token : ι → Text) (f : Fleet server ι α) : Prop where
  begun : ∀ {i since rest}, f.stage i = .inside since rest → since ≤ server.now f.state
  stands : ∀ {i since rest}, f.stage i = .inside since rest →
    server.now f.state < since + (calls i).lifetime →
    server.stamp? f.state (Lease.key (calls i).address) =
      some ⟨token i, since + (calls i).lifetime⟩
  apart : ∀ {i j since since' rest rest'}, i ≠ j →
    f.stage i = .inside since rest → f.stage j = .inside since' rest' →
    (calls i).address.lower = (calls j).address.lower →
    since + (calls i).lifetime ≤ since' ∨ since' + (calls j).lifetime ≤ since

theorem Sound.start (s : server.State) : Sound calls token (start s) :=
  ⟨fun inside => (nomatch inside), fun inside => (nomatch inside),
    fun _ inside => (nomatch inside)⟩

/-- What a call does at the server disturbs no lease with another token. -/
theorem stands_serves (lawful : server.Lawful) {hold : Hold α} {own : Text} {x : Happening}
    {s s' : server.State} (serves : Serves server hold own s x s') {key : Text}
    {stamp : Lease.Stamp} (stands : server.stamp? s key = some stamp)
    (other : stamp.token ≠ own) : server.stamp? s' key = some stamp := by
  cases x with
  | acquired answer => exact lawful.stands_acquire serves stands
  | asked x =>
    cases serves
    exact stands
  | released answer => exact lawful.stands_release serves stands other

theorem now_serves (lawful : server.Lawful) {hold : Hold α} {own : Text} {x : Happening}
    {s s' : server.State} (serves : Serves server hold own s x s') :
    server.now s' = server.now s := by
  cases x with
  | acquired answer => exact (lawful.acquire serves).1
  | asked x =>
    cases serves
    rfl
  | released answer => exact (lawful.release serves).1

/-- A call that is inside after a happening was there before, or has just been given its
lease. -/
theorem inside_of_advance {hold : Hold α} {now since : Nat} {stage : Hold.Stage α}
    {x : Happening} {rest : Program (Except Failure α)}
    (advance : hold.Advance now stage x (.inside since rest)) :
    (∃ y before, x = .asked y ∧ stage = .inside since before) ∨
      x = .acquired (.ok true) ∧ since = now := by
  generalize reached : Hold.Stage.inside since rest = stage' at advance
  cases advance with
  | acquired answer =>
    rcases answer with detail | _ | _
    · cases reached
    · cases reached
    · cases reached
      exact .inr ⟨rfl, rfl⟩
  | asked answer =>
    cases reached
    exact .inl ⟨_, _, rfl, rfl⟩
  | released answer => cases reached

/-- The lease of a call that is inside has run out when another one is given the lease of its
key. -/
theorem Sound.expired_of_free (sound : Sound calls token f) {i : ι} {since : Nat}
    {rest : Program (Except Failure α)} (inside : f.stage i = .inside since rest)
    (free : server.stamp? f.state (Lease.key (calls i).address) = none) :
    since + (calls i).lifetime ≤ server.now f.state := by
  refine Nat.le_of_not_lt fun running => ?_
  rw [sound.stands inside running] at free
  cases free

theorem Sound.pass (lawful : server.Lawful) (sound : Sound calls token f) {s : server.State}
    (passed : server.pass f.state s) : Sound calls token { f with state := s } := by
  obtain ⟨later, kept⟩ := lawful.pass passed
  refine ⟨fun inside => Nat.le_trans (sound.begun inside) later, fun inside running => ?_,
    sound.apart⟩
  exact kept _ _ (sound.stands inside (Nat.lt_of_le_of_lt later running)) running

/-! ### Steps -/

variable [DecidableEq ι]

section

-- The calls, with the tokens that their leases carry.
variable (calls : ι → Hold α) (token : ι → Text)

/-- Time passes, or something happens to one call. -/
inductive Step (f : Fleet server ι α) : Option (ι × Happening) → Fleet server ι α → Prop
  | pass {s : server.State} : server.pass f.state s → Step f none { f with state := s }
  | call {i : ι} {x : Happening} {stage : Hold.Stage α} {s : server.State} :
    (calls i).Advance (server.now f.state) (f.stage i) x stage →
    Serves server (calls i) (token i) f.state x s →
    Step f (some (i, x)) ⟨s, Function.update f.stage i stage⟩

/-- Steps in any order. -/
inductive Run (f : Fleet server ι α) : List (ι × Happening) → Fleet server ι α → Prop
  | refl : Run f [] f
  | step {events : List (ι × Happening)} {f' f'' : Fleet server ι α}
      {e? : Option (ι × Happening)} :
    Run f events f' → Step calls token f' e? f'' → Run f (events ++ e?.toList) f''

/-- What happened to one call. -/
def history (i : ι) (events : List (ι × Happening)) : List Happening :=
  (events.filter (·.1 = i)).map Prod.snd

end

variable {events : List (ι × Happening)}

/-- Each call goes on by its own happenings. -/
theorem Run.advances {s : server.State} (run : Run calls token (start s) events f) (i : ι) :
    (calls i).Advances (history i events) (f.stage i) := by
  induction run with
  | refl => exact .refl
  | step _ step ih =>
    cases step with
    | pass _ => simpa using ih
    | @call j x stage s advance _ =>
      by_cases own : j = i
      · subst own
        simpa [history] using ih.step advance
      · simpa [history, own, Function.update_of_ne (Ne.symm own)] using ih

/-- Whoever is inside after something happened to a call was inside before, or is that call
and has just been given its lease. -/
theorem inside_of_call (lawful : server.Lawful) {i j : ι} {x : Happening}
    {stage : Hold.Stage α} {s : server.State} {since : Nat}
    {rest : Program (Except Failure α)}
    (advance : (calls i).Advance (server.now f.state) (f.stage i) x stage)
    (serves : Serves server (calls i) (token i) f.state x s)
    (inside : Function.update f.stage i stage j = .inside since rest) :
    (∃ before, f.stage j = .inside since before ∧ (j = i → s = f.state)) ∨
      j = i ∧ since = server.now f.state ∧
        server.Given f.state (Lease.key (calls i).address) (token i) (calls i).lifetime s := by
  by_cases own : j = i
  · subst own
    rw [Function.update_self] at inside
    subst inside
    rcases inside_of_advance advance with ⟨y, before, rfl, was⟩ | ⟨rfl, rfl⟩
    · exact .inl ⟨before, was, fun _ => serves⟩
    · exact .inr ⟨rfl, rfl, (lawful.acquire serves).2⟩
  · rw [Function.update_of_ne own] at inside
    exact .inl ⟨rest, inside, fun same => absurd same own⟩

theorem Sound.call (lawful : server.Lawful) (fresh : Function.Injective token)
    (sound : Sound calls token f) {i : ι} {x : Happening} {stage : Hold.Stage α}
    {s : server.State} (advance : (calls i).Advance (server.now f.state) (f.stage i) x stage)
    (serves : Serves server (calls i) (token i) f.state x s) :
    Sound calls token ⟨s, Function.update f.stage i stage⟩ := by
  have now := now_serves lawful serves
  refine ⟨fun {j since rest} inside => ?_, fun {j since rest} inside running => ?_,
    fun {j k since since' rest rest'} ne inside inside' same => ?_⟩
  · rw [now]
    rcases inside_of_call lawful advance serves inside with ⟨_, was, -⟩ | ⟨-, rfl, -⟩
    · exact sound.begun was
    · exact Nat.le_refl _
  · rw [now] at running
    rcases inside_of_call lawful advance serves inside with ⟨_, was, own⟩ | ⟨rfl, rfl, given⟩
    · have stood := sound.stands was running
      by_cases mine : j = i
      · exact (own mine) ▸ stood
      · exact stands_serves lawful serves stood (fresh.ne mine)
    · rw [given.stamps, Function.update_self]
  · rcases inside_of_call lawful advance serves inside with ⟨_, was, -⟩ | ⟨rfl, rfl, given⟩
    · rcases inside_of_call lawful advance serves inside' with ⟨_, was', -⟩ | ⟨rfl, rfl, given⟩
      · exact sound.apart ne was was' same
      · refine .inl (sound.expired_of_free was ?_)
        rw [Lease.key_inj.mpr same, given.free]
    · rcases inside_of_call lawful advance serves inside' with ⟨_, was', -⟩ | ⟨rfl, -, -⟩
      · refine .inr (sound.expired_of_free was' ?_)
        rw [← Lease.key_inj.mpr same, given.free]
      · exact absurd rfl ne

theorem Run.sound (lawful : server.Lawful) (fresh : Function.Injective token)
    {s : server.State} (run : Run calls token (start s) events f) : Sound calls token f := by
  induction run with
  | refl => exact .start s
  | step _ step ih =>
    cases step with
    | pass passed => exact ih.pass lawful passed
    | call advance serves => exact ih.call lawful fresh advance serves

/-! ### All runs -/

/-- However calls of any workers take turns at a lock server that keeps its laws, with tokens
of their own: a call is a run of its program, in which it has not been answered yet; or it got
no lease and ended with an internal error, with nothing released; or it was given its lease and
its body runs, with what that asked; or its body has ended, and it ended as the body did,
whatever the release answered. Of two calls inside one lock the earlier lease had run out
before the later one was given; a lease stands while its call is inside, until it runs out; and
no call removes a lease with another token. -/
theorem leases_kept (lawful : server.Lawful) (fresh : Function.Injective token)
    {s : server.State} (run : Run calls token (start s) events f) :
    (∀ i, (Action.hold .server (calls i).address (calls i).body).run.Reaches
        ((history i events).map (calls i).seen) ((calls i).rest (f.stage i)) ∧
      (f.stage i = .asking ∧ history i events = [] ∨
        (∃ answer fault, answer ≠ .ok true ∧ Lease.verdict answer = .error fault ∧
          fault.toError.kind = .internal ∧ history i events = [.acquired answer] ∧
          (calls i).rest (f.stage i) = .done (.error (.rpc fault.toError))) ∨
        (∃ since rest h, f.stage i = .inside since rest ∧
          history i events = .acquired (.ok true) :: h.map .asked ∧
          (calls i).body.run.Reaches h rest) ∨
        ∃ outcome h answer, (calls i).rest (f.stage i) = .done outcome ∧
          history i events = .acquired (.ok true) :: h.map .asked ++ [.released answer] ∧
          (calls i).body.run.Reaches h (.done outcome))) ∧
    (∀ i j since since' rest rest', i ≠ j →
      f.stage i = .inside since rest → f.stage j = .inside since' rest' →
      (calls i).address.lower = (calls j).address.lower →
      since + (calls i).lifetime ≤ since' ∨ since' + (calls j).lifetime ≤ since) ∧
    (∀ i since rest, f.stage i = .inside since rest → since ≤ server.now f.state ∧
      (server.now f.state < since + (calls i).lifetime →
        server.stamp? f.state (Lease.key (calls i).address) =
          some ⟨token i, since + (calls i).lifetime⟩)) ∧
    (∀ i x f', Step calls token f (some (i, x)) f' → ∀ key stamp,
      server.stamp? f.state key = some stamp → stamp.token ≠ token i →
      server.stamp? f'.state key = some stamp) := by
  have sound := run.sound lawful fresh
  refine ⟨fun i => ⟨(run.advances i).reaches, ?_⟩, fun i j _ _ _ _ => sound.apart,
    fun i since rest inside => ⟨sound.begun inside, sound.stands inside⟩,
    fun i x f' step key stamp stands other => ?_⟩
  · have course := (run.advances i).course
    generalize history i events = h, f.stage i = stage at course ⊢
    cases course with
    | asking => exact .inl ⟨rfl, rfl⟩
    | @refused answer fault told =>
      refine .inr (.inl ⟨answer, fault, ?_, told, ?_, rfl, rfl⟩)
      · rintro rfl
        cases told
      · cases fault <;> rfl
    | inside reached => exact .inr (.inr (.inl ⟨_, _, _, rfl, rfl, reached⟩))
    | ended answer reached => exact .inr (.inr (.inr ⟨_, _, answer, rfl, rfl, reached⟩))
  · cases step with
    | call _ serves => exact stands_serves lawful serves stands other

/-- A lease runs out while its body runs, and another worker is given the lock; the first
worker's release is refused, its body's failure is its outcome, and the second one's lease
stands. -/
theorem leases_kept_overtaken :
    let calls : Bool → Hold Nat := fun second =>
      { address := if second then "0xab" else "0xAB"
        body := if second then pure 7 else throw (.plain .internal)
        lifetime := 30 }
    let token : Bool → Text := fun second => if second then "b" else "a"
    let events : List (Bool × Happening) :=
      [(false, .acquired (.ok true)), (true, .acquired (.ok true)),
        (false, .released (.error "not owned"))]
    ∃ f : Fleet .inMemory Bool Nat, Run calls token (start ({} : Lease.Shelf)) events f ∧
      (calls false).rest (f.stage false) = .done (.error (.plain .internal)) ∧
      Lease.Server.inMemory.stamp? f.state (Lease.key "0xab") = some ⟨"b", 60⟩ := by
  intro calls token events
  have fresh : Function.Injective token := by
    intro one other same
    cases one <;> cases other <;> first | rfl | exact absurd same (by decide)
  have begun : Run calls token (start ({} : Lease.Shelf) : Fleet .inMemory Bool Nat) [] _ := .refl
  have first := begun.step (.call (i := false) (x := .acquired (.ok true))
    (.acquired (.ok true)) ⟨rfl, by decide, rfl⟩)
  have passed := first.step (.pass ⟨30, rfl⟩)
  have second := passed.step (.call (i := true) (x := .acquired (.ok true))
    (.acquired (.ok true)) ⟨by decide +kernel, by decide, rfl⟩)
  have third := second.step (.call (i := false) (x := .released (.error "not owned"))
    (.released _) (.inl rfl))
  refine ⟨_, third, rfl, ?_⟩
  have stands := (leases_kept Lease.Server.inMemory_lawful fresh third).2.2.1 true 30
    (.done (.ok 7)) rfl
  exact stands.2 (by decide)

end Fleet

end Paymaster

import Paymaster.Program.Request

/-!
# Programs

A program is finished, or asks its surroundings something and goes on with the answer.
The service is written as programs, so that the same definition can be run alone, or step
by step between the steps of others.
-/

namespace Paymaster

inductive Program (α : Type) where
  /-- Finished with a result. -/
  | done (a : α)
  /-- Asks, and goes on with the answer. -/
  | ask (r : Request) (next : r.Answer → Program α)

namespace Program

variable {α β : Type}

/-- Goes on with the result of a program. -/
def bind : Program α → (α → Program β) → Program β
  | .done a, f => f a
  | .ask r next, f => .ask r fun answer => (next answer).bind f

instance : Monad Program where
  pure := .done
  bind := bind

def request (r : Request) : Program r.Answer :=
  .ask r .done

/-- Runs a program alone: every request is answered before the next one. -/
def run {σ : Type} (answer : (r : Request) → σ → r.Answer × σ) : Program α → σ → α × σ
  | .done a, s => (a, s)
  | .ask r next, s =>
    let (a, s) := answer r s
    (next a).run answer s

/-- Runs a program while the lock of an address is held, and gives the lock back however
the program ends. The program does not run without the lock. -/
def hold (source : LockSource) (address : Text) (body : Program α) :
    Program (Except LockFault α) := do
  match ← request (.enterLock source address) with
  | .error fault => return .error fault
  | .ok () =>
    let result ← body
    request (.leaveLock source address)
    return .ok result

/-! ## Laws -/

@[simp] theorem pure_def (a : α) : (pure a : Program α) = .done a := rfl

@[simp] theorem bind_def (p : Program α) (f : α → Program β) : p >>= f = p.bind f := rfl

@[simp] theorem done_bind (a : α) (f : α → Program β) : (Program.done a).bind f = f a := rfl

@[simp] theorem bind_done (p : Program α) : p.bind .done = p := by
  induction p with
  | done a => rfl
  | ask r next ih => simp [bind, ih]

theorem bind_assoc {γ : Type} (p : Program α) (f : α → Program β) (g : β → Program γ) :
    (p.bind f).bind g = p.bind fun a => (f a).bind g := by
  induction p with
  | done a => rfl
  | ask r next ih => simp [bind, ih]

instance : LawfulMonad Program :=
  LawfulMonad.mk' Program (fun p => bind_done p) (fun _ _ => rfl)
    (fun p f g => bind_assoc p f g)

/-- A program in two parts runs one part after the other. -/
theorem run_bind {σ : Type} (answer : (r : Request) → σ → r.Answer × σ) (p : Program α)
    (f : α → Program β) (s : σ) :
    (p.bind f).run answer s = (f (p.run answer s).1).run answer (p.run answer s).2 := by
  induction p generalizing s with
  | done a => rfl
  | ask r next ih => simp [bind, run, ih]

end Program

end Paymaster

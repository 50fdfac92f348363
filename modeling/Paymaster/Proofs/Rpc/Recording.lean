import Paymaster.Rpc.Dispatcher

/-!
# Taking down what a dispatcher does

The operations and the observer of a dispatcher may do anything, so what they did is not to be
seen in the answer. `Dispatcher.recorded` is the same dispatcher over a monad that also takes
down which operation was run on which arguments and what the observer was told. Without the
record nothing is different (`Dispatcher.handle_recorded`).
-/

namespace Paymaster

/-- A run of an operation. -/
structure Run where
  name : Text
  arguments : List Json
  outcome : Except Thrown Result

/-- What an observer was told. -/
structure Notice where
  name : Text
  response : Response

/-- What a dispatcher does besides answering. -/
inductive Deed where
  | ran (run : Run)
  | told (notice : Notice)

namespace Deed

def run? : Deed → Option Run
  | .ran run => some run
  | .told _ => none

def notice? : Deed → Option Notice
  | .ran _ => none
  | .told notice => some notice

def runs (deeds : List Deed) : List Run :=
  deeds.filterMap run?

def notices (deeds : List Deed) : List Notice :=
  deeds.filterMap notice?

end Deed

/-! ## The record -/

section Record

variable {m : Type → Type} [Monad m] {α : Type}

/-- Does something and takes it down with what came of it. -/
def recording (deed : α → Deed) (x : m α) : StateT (List Deed) m α :=
  fun deeds => (fun a => (a, deeds ++ [deed a])) <$> x

def Method.recorded (method : Method m) : Method (StateT (List Deed) m) where
  name := method.name
  shapes := method.shapes
  handler arguments :=
    recording (fun outcome => .ran ⟨method.name, arguments, outcome⟩) (method.handler arguments)

def Registry.recorded (registry : Registry m) : Registry (StateT (List Deed) m) :=
  ⟨registry.entries.map fun e => (e.1, e.2.recorded)⟩

def Dispatcher.recorded (d : Dispatcher m) : Dispatcher (StateT (List Deed) m) where
  registry := d.registry.recorded
  observer? := d.observer?.map fun observe name response =>
    recording (fun _ => .told ⟨name, response⟩) (observe name response)

@[simp] theorem run_recording (deed : α → Deed) (x : m α) (deeds : List Deed) :
    (recording deed x).run deeds = (fun a => (a, deeds ++ [deed a])) <$> x := rfl

theorem Registry.find?_recorded (registry : Registry m) (name : Text) :
    registry.recorded.find? name = (registry.find? name).map Method.recorded := by
  unfold find? recorded
  induction registry.entries with
  | nil => rfl
  | cons e rest ih =>
    obtain ⟨key, method⟩ := e
    cases here : name.lower == key with
    | true => simp [List.lookup_cons, here]
    | false => simpa [List.lookup_cons, here] using ih

theorem Dispatcher.observedName_recorded (registry : Registry m) (call : Call) :
    observedName registry.recorded call = observedName registry call := by
  unfold observedName
  rw [registry.find?_recorded]
  cases registry.find? call.method <;> rfl

/-- The runs that a call with an outcome comes to: one of its operation, or none. -/
def Registry.runsOf (registry : Registry m) (call : Call) (outcome : Except Thrown Result) :
    List Deed :=
  match registry.find? call.method with
  | none => []
  | some method =>
    match Dispatcher.coerceArguments method.shapes call.params with
    | .error _ => []
    | .ok arguments => [.ran ⟨method.name, arguments, outcome⟩]

/-- The notices that the envelope of a call comes to: one to the observer, if there is one. -/
def Dispatcher.noticesOf (d : Dispatcher m) (call : Call) (response : Response) : List Deed :=
  if d.observer?.isSome then [.told ⟨observedName d.registry call, response⟩] else []

end Record

/-! ## Without the record -/

namespace Dispatcher

variable {m : Type → Type} [Monad m] [LawfulMonad m]

theorem run_invoke_recorded (registry : Registry m) (call : Call) (deeds : List Deed) :
    (invoke registry.recorded call).run deeds =
      (fun outcome => (outcome, deeds ++ registry.runsOf call outcome)) <$>
        invoke registry call := by
  unfold invoke Registry.runsOf
  rw [registry.find?_recorded]
  cases registry.find? call.method with
  | none => simp
  | some method =>
    simp only [Option.map_some, Method.recorded]
    cases coerceArguments method.shapes call.params with
    | error thrown => simp
    | ok arguments => simp

theorem run_tell_recorded (d : Dispatcher m) (call : Call) (response : Response)
    (deeds : List Deed) : (d.recorded.tell call response).run deeds =
      (fun ended => (ended, deeds ++ d.noticesOf call response)) <$> d.tell call response := by
  unfold tell noticesOf recorded
  cases d.observer? with
  | none => simp
  | some observe =>
    simp only [Option.map_some, StateT.run_bind, run_recording, bind_map_left, map_bind,
      observedName_recorded]
    refine congrArg _ (funext fun seen => ?_)
    cases seen <;> simp

theorem run_dispatch_recorded (d : Dispatcher m) (call : Call) (deeds : List Deed) :
    (d.recorded.dispatch call).run deeds = (do
      let outcome ← invoke d.registry call
      let ran := deeds ++ d.registry.runsOf call outcome
      match respond call outcome with
      | .ok response =>
        (fun ended => (ended, ran ++ d.noticesOf call response)) <$> d.tell call response
      | .error escape => pure (.error escape, ran)) := by
  have invoked := run_invoke_recorded d.registry call deeds
  unfold dispatch
  rw [StateT.run_bind, show d.recorded.registry = d.registry.recorded from rfl, invoked,
    bind_map_left]
  refine congrArg _ (funext fun outcome => ?_)
  cases respond call outcome with
  | ok response => simp only [run_tell_recorded]
  | error escape => simp only [StateT.run_pure]

/-- With the record left out, a body is handled as it is without one. -/
theorem handle_recorded (d : Dispatcher m) (body : Bytes) (deeds : List Deed) :
    Prod.fst <$> (d.recorded.handle body).run deeds = d.handle body := by
  unfold handle
  cases read body with
  | error escape => simp
  | ok outcome =>
    cases outcome with
    | error response => simp
    | ok call =>
      show Prod.fst <$> (d.recorded.dispatch call).run deeds = d.dispatch call
      rw [run_dispatch_recorded, dispatch, map_bind]
      refine congrArg _ (funext fun outcome => ?_)
      cases respond call outcome <;> simp

end Dispatcher

end Paymaster

import Paymaster.Proofs.Rpc.Answering
import Paymaster.Proofs.Rpc.Calls
import Paymaster.Proofs.Rpc.Recording
import Paymaster.Proofs.Rpc.Registering

/-!
# The protocol of calls

`Dispatcher.Protocol` says what is answered and what is done when a body is handled, in terms
of what the body means and of the record of `Dispatcher.recorded`: the identifier that comes
back, the one run of an operation and its arguments, the outcome in the envelope, and the one
notice to the observer. Every dispatcher over a registry that was built by registering keeps it,
whatever its operations and its observer do (`Dispatcher.keeps_protocol`).
-/

namespace Paymaster.Dispatcher

open Deed

variable {registry : Registry Program} {call : Call}

/-! ## What a call gives -/

/-- What is raised on the way to the result of the call of a body: nobody has registered the
operation, an argument is not coerced, the operation that was run raises, or its result is not
written. -/
inductive Raised (registry : Registry Program) (body : Bytes) (deeds : List Deed) : Thrown → Prop
  | unknown {call : Call} : Asks body call → (∀ method, ¬ registry.Names call.method method) →
      Raised registry body deeds (.coded (.because .methodNotFound "Method not found"))
  | arguments {call : Call} {method : Method Program} {thrown : Thrown} : Asks body call →
      registry.Names call.method method →
      coerceArguments method.shapes call.params = .error thrown →
      Raised registry body deeds thrown
  | run {run : Run} {thrown : Thrown} : run ∈ runs deeds → run.outcome = .error thrown →
      Raised registry body deeds thrown
  | result {run : Run} {given : Result} {thrown : Thrown} : run ∈ runs deeds →
      run.outcome = .ok given → given.encode = .error thrown → Raised registry body deeds thrown

/-- An outcome of a call with the deeds that it took. -/
inductive Gives (registry : Registry Program) (call : Call) :
    Except Thrown Result → List Deed → Prop
  | unknown : (∀ method, ¬ registry.Names call.method method) →
      Gives registry call (.error (.coded (.because .methodNotFound "Method not found"))) []
  | arguments {method : Method Program} {thrown : Thrown} :
      registry.Names call.method method →
      coerceArguments method.shapes call.params = .error thrown →
      Gives registry call (.error thrown) []
  | run {method : Method Program} {arguments : List Json} {outcome : Except Thrown Result} :
      registry.Names call.method method → Coerced method.shapes call.params arguments →
      Gives registry call outcome [.ran ⟨method.name, arguments, outcome⟩]

theorem follows_invoke (sound : registry.Sound) :
    (invoke registry call).Follows (fun _ _ => True) fun _ outcome =>
      Gives registry call outcome (registry.runsOf call outcome) := by
  unfold invoke Registry.runsOf
  cases found : registry.find? call.method with
  | none =>
    have unnamed := (sound.find?_eq_none_iff _).mp found
    exact Gives.unknown unnamed
  | some method =>
    have names := (sound.find?_eq_some_iff _ _).mp found
    dsimp only
    cases coerced : coerceArguments method.shapes call.params with
    | error thrown => exact Gives.arguments names coerced
    | ok arguments =>
      have each := (coerceArguments_eq_ok_iff _ _ _).mp coerced
      exact (Program.follows_any _).mono (fun _ _ => id) fun _ _ _ => .run names each

theorem names_unique (sound : registry.Sound) {method method' : Method Program}
    (names : registry.Names call.method method) (names' : registry.Names call.method method') :
    method = method' :=
  Option.some.inj (((sound.find?_eq_some_iff _ _).mpr names).symm.trans
    ((sound.find?_eq_some_iff _ _).mpr names'))

theorem Coerced.unique {shapes : List Shape} {params arguments arguments' : List Json}
    (coerced : Coerced shapes params arguments) (coerced' : Coerced shapes params arguments') :
    arguments = arguments' :=
  Except.ok.inj (((coerceArguments_eq_ok_iff _ _ _).mpr coerced).symm.trans
    ((coerceArguments_eq_ok_iff _ _ _).mpr coerced'))

theorem Coerced.not_error {shapes : List Shape} {params arguments : List Json} {thrown : Thrown}
    (coerced : Coerced shapes params arguments) :
    coerceArguments shapes params ≠ .error thrown := by
  rw [(coerceArguments_eq_ok_iff _ _ _).mpr coerced]
  exact nofun

/-- What is raised is what the call comes to. -/
theorem Gives.written_of_raised (sound : registry.Sound) {body : Bytes} (asks : Asks body call)
    {outcome : Except Thrown Result} {ran deeds : List Deed}
    (gives : Gives registry call outcome ran)
    (same : runs deeds = runs ran) {thrown : Thrown} (raised : Raised registry body deeds thrown) :
    written outcome = .error thrown := by
  cases raised with
  | unknown asks' unnamed =>
    cases asks.unique asks'
    cases gives with
    | unknown => rfl
    | arguments names => exact (unnamed _ names).elim
    | run names => exact (unnamed _ names).elim
  | arguments asks' names' refused' =>
    cases asks.unique asks'
    cases gives with
    | unknown unnamed => exact (unnamed _ names').elim
    | arguments names refused =>
      cases names_unique sound names names'
      rw [Except.error.inj (refused.symm.trans refused')]
      rfl
    | run names coerced =>
      cases names_unique sound names names'
      exact (coerced.not_error refused').elim
  | run member ended =>
    rw [same] at member
    cases gives with
    | unknown => cases member
    | arguments => cases member
    | run =>
      cases List.mem_singleton.mp member
      dsimp only at ended
      rw [ended]
      rfl
  | result member ended refused =>
    rw [same] at member
    cases gives with
    | unknown => cases member
    | arguments => cases member
    | run =>
      cases List.mem_singleton.mp member
      dsimp only at ended
      rw [ended]
      exact refused

/-- An operation is run on exactly the arguments of its call. -/
theorem Gives.ran_iff (sound : registry.Sound) {body : Bytes} (asks : Asks body call)
    {outcome : Except Thrown Result} {ran : List Deed} (gives : Gives registry call outcome ran)
    (name : Text) (arguments : List Json) :
    (∃ outcome, ⟨name, arguments, outcome⟩ ∈ runs ran) ↔
      ∃ call method, Asks body call ∧ registry.Names call.method method ∧
        name = method.name ∧ Coerced method.shapes call.params arguments := by
  constructor
  · rintro ⟨outcome, member⟩
    cases gives with
    | unknown => cases member
    | arguments => cases member
    | run names coerced =>
      cases List.mem_singleton.mp member
      exact ⟨call, _, asks, names, rfl, coerced⟩
  · rintro ⟨call', method, asks', names', rfl, coerced'⟩
    cases asks.unique asks'
    cases gives with
    | unknown unnamed => exact (unnamed _ names').elim
    | arguments names refused =>
      cases names_unique sound names names'
      exact (coerced'.not_error refused).elim
    | run names coerced =>
      cases names_unique sound names names'
      cases coerced.unique coerced'
      exact ⟨outcome, List.mem_singleton.mpr rfl⟩

/-- There is a result exactly if a run had one that is written. -/
theorem Gives.result_iff {outcome : Except Thrown Result} {ran : List Deed}
    (gives : Gives registry call outcome ran) (result : Json) :
    written outcome = .ok result ↔ ∃ name arguments given,
      ⟨name, arguments, .ok given⟩ ∈ runs ran ∧ given.encode = .ok result := by
  constructor
  · intro made
    cases outcome with
    | error thrown => cases made
    | ok given =>
      cases gives with
      | run => exact ⟨_, _, given, List.mem_singleton.mpr rfl, made⟩
  · rintro ⟨name, arguments, given, member, made⟩
    cases gives with
    | unknown => cases member
    | arguments => cases member
    | run =>
      cases List.mem_singleton.mp member
      exact made

/-! ## The protocol -/

/-- How a body is answered under its identifier, and what is done on the way. -/
structure Protocol (d : Dispatcher Program) (body : Bytes) (response : Response)
    (deeds : List Deed) : Prop where
  echoes : Echoes body response.id
  once : (runs deeds).length ≤ 1
  ran_iff : ∀ name arguments, (∃ outcome, ⟨name, arguments, outcome⟩ ∈ runs deeds) ↔
    ∃ call method, Asks body call ∧ d.registry.Names call.method method ∧
      name = method.name ∧ Coerced method.shapes call.params arguments
  result_iff : ∀ result, response.outcome = .ok result ↔ ∃ name arguments given,
    ⟨name, arguments, .ok given⟩ ∈ runs deeds ∧ given.encode = .ok result
  coded : ∀ e, Raised d.registry body deeds (.coded e) → response.outcome = .error e
  uncoded : ∀ message, Raised d.registry body deeds (.uncoded message) →
    ∃ kind, response.outcome = .error { kind, code := -32601, message, data := .text message }
  observed : ∀ call, Asks body call → d.observer?.isSome → ∃ name,
    notices deeds = [⟨name, response⟩] ∧
    (∀ method, d.registry.Names call.method method → name = method.name) ∧
    ((∀ method, ¬ d.registry.Names call.method method) → name = "<unknown>")
  unobserved : (∀ call, ¬ Asks body call) → deeds = []

theorem protocol_of_refusal {d : Dispatcher Program} {body : Bytes} {e : RpcError}
    {id : RequestId} (nothing : ∀ call, ¬ Asks body call) (echoes : Echoes body id) :
    d.Protocol body (.ofError e id) [] := by
  have unraised : ∀ thrown, ¬ Raised d.registry body [] thrown := by
    intro thrown raised
    cases raised with
    | unknown asks => exact nothing _ asks
    | arguments asks => exact nothing _ asks
    | run member => cases member
    | result member => cases member
  refine ⟨echoes, Nat.zero_le _, fun name arguments => ?_, fun result => ?_, ?_, ?_, ?_, ?_⟩
  · constructor
    · rintro ⟨outcome, member⟩
      cases member
    · rintro ⟨call, method, asks, -⟩
      exact (nothing call asks).elim
  · constructor
    · intro same
      cases same
    · rintro ⟨name, arguments, given, member, -⟩
      cases member
  · exact fun e raised => (unraised _ raised).elim
  · exact fun message raised => (unraised _ raised).elim
  · exact fun call asks => (nothing call asks).elim
  · exact fun _ => rfl

/-- The deeds of a call that comes to an envelope, and whose observer, if there is one, did not
fail. -/
def deedsOf (d : Dispatcher Program) (call : Call) (outcome : Except Thrown Result)
    (response : Response) : List Deed :=
  d.registry.runsOf call outcome ++ d.noticesOf call response

/-- An observer that is told an envelope does not change it. -/
theorem follows_told (d : Dispatcher Program) (call : Call) (response : Response) :
    (d.tell call response).Follows (fun _ _ => True) fun _ ended =>
      ∀ response', ended = .ok response' → response' = response := by
  unfold tell
  cases d.observer? with
  | none =>
    rintro _ ⟨⟩
    rfl
  | some observe =>
    refine (Program.follows_bind _ _).mpr ((Program.follows_any _).mono (fun _ _ => id) ?_)
    intro g seen _
    cases seen with
    | error message => exact nofun
    | ok _ =>
      rintro _ ⟨⟩
      rfl

theorem observedName_of_names (sound : registry.Sound) {method : Method Program}
    (names : registry.Names call.method method) : observedName registry call = method.name := by
  simp only [observedName, (sound.find?_eq_some_iff _ _).mpr names]

theorem observedName_of_not_names (sound : registry.Sound)
    (unnamed : ∀ method, ¬ registry.Names call.method method) :
    observedName registry call = "<unknown>" := by
  simp only [observedName, (sound.find?_eq_none_iff _).mpr unnamed]
  rfl

theorem runs_deedsOf (d : Dispatcher Program) (call : Call) (outcome : Except Thrown Result)
    (response : Response) :
    runs (d.deedsOf call outcome response) = runs (d.registry.runsOf call outcome) := by
  unfold deedsOf noticesOf
  split <;> simp [runs, run?]

theorem notices_deedsOf (d : Dispatcher Program) (call : Call) (outcome : Except Thrown Result)
    (response : Response) : notices (d.deedsOf call outcome response) =
      if d.observer?.isSome then [⟨observedName d.registry call, response⟩] else [] := by
  have none : notices (d.registry.runsOf call outcome) = [] := by
    unfold Registry.runsOf
    repeat' split
    all_goals rfl
  unfold deedsOf noticesOf
  rw [notices, List.filterMap_append, ← notices, none]
  split <;> rfl

/-- The envelope of a call has its identifier, and the result or the error that it comes to. -/
theorem respond_eq_ok_iff {call : Call} {outcome : Except Thrown Result} {response : Response} :
    respond call outcome = .ok response ↔
      (∃ result, written outcome = .ok result ∧ response = .ofResult result call.id) ∨
      ∃ thrown e, written outcome = .error thrown ∧ errorOf thrown = .ok e ∧
        response = .ofError e call.id := by
  unfold respond
  rcases written outcome with thrown | result
  · cases thrown <;> simp [errorOf, Except.map, eq_comm]
  · simp [eq_comm]

theorem protocol_of_gives {d : Dispatcher Program} (sound : d.registry.Sound) {body : Bytes}
    (asks : Asks body call) (echoes : Echoes body call.id) {outcome : Except Thrown Result}
    {response : Response} (made : respond call outcome = .ok response)
    (gives : Gives d.registry call outcome (d.registry.runsOf call outcome)) :
    d.Protocol body response (d.deedsOf call outcome response) := by
  have same := d.runs_deedsOf call outcome response
  have either := respond_eq_ok_iff.mp made
  constructor
  case echoes => rcases either with ⟨_, -, rfl⟩ | ⟨_, _, -, -, rfl⟩ <;> exact echoes
  case once =>
    rw [same]
    unfold Registry.runsOf
    repeat' split
    all_goals simp [runs, run?]
  case ran_iff =>
    rw [same]
    exact gives.ran_iff sound asks
  case result_iff =>
    intro result
    rw [same, ← gives.result_iff]
    rcases either with ⟨_, comes, rfl⟩ | ⟨_, _, comes, -, rfl⟩
    · simp [comes, Response.ofResult]
    · simp [comes, Response.ofError]
  case coded =>
    intro e raised
    have comes := gives.written_of_raised sound asks same raised
    simp only [respond, comes, errorOf] at made
    cases made
    rfl
  case uncoded =>
    intro message raised
    have comes := gives.written_of_raised sound asks same raised
    simp only [respond, comes, errorOf] at made
    cases made
    exact ⟨.methodNotFound, rfl⟩
  case observed =>
    intro call' asks' watched
    cases asks.unique asks'
    refine ⟨observedName d.registry call, ?_, fun method names => ?_, fun unnamed => ?_⟩
    · rw [notices_deedsOf, if_pos watched]
    · exact observedName_of_names sound names
    · exact observedName_of_not_names sound unnamed
  case unobserved => exact fun nothing => (nothing call asks).elim

/-- Whatever the operations and the observer of a dispatcher do, the record leaves the handling
of a body as it is, and every answer that a body gets keeps the protocol. -/
theorem keeps_protocol (d : Dispatcher Program) (built : d.registry.Built) (body : Bytes) :
    Prod.fst <$> (d.recorded.handle body).run [] = d.handle body ∧
    ((d.recorded.handle body).run []).Follows (fun _ _ => True) fun _ ended =>
      ∀ response, ended.1 = .ok response → d.Protocol body response ended.2 := by
  refine ⟨d.handle_recorded body [], ?_⟩
  unfold handle
  cases got : read body with
  | error escape =>
    intro response none
    cases none
  | ok outcome =>
    cases reads_of_read got with
    | refusal nothing echoes =>
      intro response same
      cases same
      exact protocol_of_refusal nothing echoes
    | call asks echoes =>
      rename_i call
      show ((d.recorded.dispatch call).run []).Follows _ _
      rw [run_dispatch_recorded]
      refine (Program.follows_bind _ _).mpr ((follows_invoke built.sound).mono (fun _ _ => id) ?_)
      intro h outcome gives
      cases made : respond call outcome with
      | error escape =>
        intro response none
        cases none
      | ok response =>
        have keeps := protocol_of_gives built.sound asks echoes made gives
        refine (Program.follows_map _ _).mpr
          ((follows_told d call response).mono (fun _ _ => id) ?_)
        intro g ended told response' same
        cases told response' same
        exact keeps

/-- A dispatcher with one operation, which gives its integer back, and an observer that counts
the calls. -/
def echoing : Dispatcher Program where
  registry := ⟨[("echo", ⟨"Echo", [.integer "int" 64 true], fun arguments =>
    pure (.ok (.value (arguments.headD .null)))⟩)]⟩
  observer? := some fun name _ => do
    let _ ← Program.request (.recordCall name none)
    return .ok ()

/-- A call in another spelling, with an integral double and a further value. -/
def echoBody : Bytes :=
  Bytes.ofAscii
    "\x7b\"jsonrpc\":\"2.0\",\"id\":7,\"method\":\"eCHO\",\"params\":[5.0,true]\x7d"

theorem built_echoing : echoing.registry.Built :=
  Registry.Built.empty.add (m := Program) "Echo" (by decide) rfl _ rfl _

theorem asks_echoBody : ∃ call, Asks echoBody call := by
  have asked : ((read echoBody).toOption.bind Except.toOption).isSome = true := by decide +kernel
  generalize got : read echoBody = outcome at asked
  rcases outcome with escape | response | call
  · cases asked
  · cases asked
  · cases reads_of_read got with
    | call asks => exact ⟨call, asks⟩

theorem keeps_protocol_echoing : echoing.registry.Built ∧ (∃ call, Asks echoBody call) ∧
    Prod.fst <$> (echoing.recorded.handle echoBody).run [] = echoing.handle echoBody ∧
    ((echoing.recorded.handle echoBody).run []).Follows (fun _ _ => True) fun _ ended =>
      ∀ response, ended.1 = .ok response → echoing.Protocol echoBody response ended.2 :=
  ⟨built_echoing, asks_echoBody, keeps_protocol echoing built_echoing echoBody⟩

end Paymaster.Dispatcher

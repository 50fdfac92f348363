import Paymaster.Proofs.Json.LongIntegers
import Paymaster.Proofs.Number.Range
import Paymaster.Proofs.Program.History
import Paymaster.Proofs.Rpc.Calls

/-!
# Which bodies are answered

An answer is an envelope: the version, an identifier, and one of result and error
(`Json.IsEnvelope`). Whatever the operations of a dispatcher do, and as long as its observer
does not fail, a body is answered exactly if its numbers can be read and what its operation
raises has a text (`Dispatcher.answers_iff`). The numbers can be read if no integer has too many
digits, and an identifier that is an integer is within the range of doubles. A body without long
runs of digits meets the first condition. An identifier of 310 digits does not meet the second,
and its body gets no answer (`Dispatcher.not_answers_long_identifier`).
-/

namespace Paymaster

/-! ## Envelopes -/

/-- What every caller may rely on: the version, an identifier, and either a result or an
error. -/
structure Json.IsEnvelope (j : Json) : Prop where
  version : j.get? "jsonrpc" = some (.text "2.0")
  identified : (j.get? "id").isSome
  outcome : (j.get? "result").isSome ≠ (j.get? "error").isSome

theorem Response.isEnvelope_toJson (r : Response) : r.toJson.IsEnvelope := by
  rcases r with ⟨id, e | result⟩
  · exact ⟨rfl, rfl, Bool.false_ne_true⟩
  · exact ⟨rfl, rfl, Bool.false_ne_true.symm⟩

/-- Nothing is asked of a program. -/
theorem Program.follows_any {α : Type} (p : Program α) :
    p.Follows (fun _ _ => True) (fun _ _ => True) := by
  induction p with
  | done a => trivial
  | ask r next ih => exact ⟨trivial, fun answer => ih answer⟩

namespace Dispatcher

/-- Every end of the handling of a body is an envelope. -/
structure Answers (d : Dispatcher Program) (body : Bytes) : Prop where
  envelope : (d.handle body).Follows (fun _ _ => True) fun _ outcome =>
    ∃ r : Response, outcome = .ok r ∧ r.toJson.IsEnvelope

/-- An observer that may do anything but fail. -/
def ObserverStands (d : Dispatcher Program) : Prop :=
  ∀ observe, d.observer? = some observe → ∀ name response,
    (observe name response).Follows (fun _ _ => True) fun _ outcome => outcome = .ok ()

/-! ## Reading a body -/

/-- A body whose numbers can be read: no integer has too many digits, and an identifier that
is an integer is within the range of doubles. -/
structure Legible (body : Bytes) : Prop where
  integers : ∀ digits, Json.ofBytes body ≠ .error (.integerTooLong digits)
  identifier : ∀ (members : Entries Text Json) (n : Int),
    Json.ofBytes body = .ok (.object members) → members.value? "id" = some (.int n) →
      n.natAbs < Double.beyond

theorem toBool_idOf_iff (value : Option Json) :
    (idOf value).toBool = true ↔ ∀ n, value = some (.int n) → n.natAbs < Double.beyond := by
  rcases value with _ | j
  · simp [idOf, Except.toBool]
  cases j with
  | int n =>
    simp only [Option.some.injEq, Json.int.injEq, forall_eq', ← Double.isSome_ofInt?_iff]
    by_cases within : (Double.ofInt? n).isSome = true
    · simp [idOf, within, Except.toBool]
    · simp [idOf, within, Except.toBool]
  | _ => simp [idOf, Except.toBool]

/-- Of an object, the identifier alone decides whether its body is read. -/
theorem toBool_read_object {body : Bytes} {members : List (Text × Json)}
    (got : Json.ofBytes body = .ok (.object members)) :
    (read body).toBool = (idOf (Entries.value? members "id")).toBool := by
  simp only [read, got]
  cases idOf (Entries.value? members "id") with
  | error escape => rfl
  | ok id =>
    cases id with
    | none => rfl
    | int n => rcases asked : callOf members (.int n) with e | call <;> simp [asked, Except.toBool]
    | double d =>
      rcases asked : callOf members (.double d) with e | call <;> simp [asked, Except.toBool]

theorem toBool_read_iff (body : Bytes) : (read body).toBool = true ↔ Legible body := by
  rcases got : Json.ofBytes body with fault | j
  · cases fault with
    | malformed => exact iff_of_true (by rw [read, got]; rfl) ⟨by simp [got], by simp [got]⟩
    | integerTooLong digits =>
      apply iff_of_false
      · rw [read, got]
        exact Bool.false_ne_true
      · intro legible
        exact legible.integers digits got
  · have integers : ∀ digits, Json.ofBytes body ≠ .error (.integerTooLong digits) := by
      simp [got]
    cases j with
    | object members =>
      rw [toBool_read_object got, toBool_idOf_iff]
      constructor
      · intro within
        refine ⟨integers, fun _ n same identified => ?_⟩
        rw [got] at same
        cases same
        exact within n identified
      · intro legible n identified
        exact legible.identifier members n got identified
    | _ => exact iff_of_true (by rw [read, got]; rfl) ⟨integers, by simp [got]⟩

/-- No run of digits in the text of a body is longer than an integer may be. -/
def ShortRuns (body : Bytes) : Prop :=
  ∀ t n, Json.decode? body = some t → Json.HasRun n t → n ≤ Integer.digitLimit

theorem integers_of_shortRuns {body : Bytes} (short : ShortRuns body) (digits : Nat) :
    Json.ofBytes body ≠ .error (.integerTooLong digits) := by
  intro refused
  obtain ⟨long, t, text, run⟩ := Json.hasRun_of_integerTooLong refused
  exact absurd (short t digits text run) (Nat.not_le.mpr long)

/-! ## What its operation raises -/

/-- Whatever the operation that a body asks for raises, or the writing of its result, has a
text. -/
def Explains (d : Dispatcher Program) (body : Bytes) : Prop :=
  ∀ call method arguments, Asks body call → d.registry.find? call.method = some method →
    Coerced method.shapes call.params arguments →
      (method.handler arguments).Follows (fun _ _ => True) fun _ outcome =>
        ∀ message, written outcome ≠ .error (.textless message)

/-- An outcome has an envelope unless something is raised that has no text. -/
theorem exists_respond_iff {call : Call} {outcome : Except Thrown Result} :
    (∃ r, respond call outcome = .ok r) ↔
      ∀ message, written outcome ≠ .error (.textless message) := by
  unfold respond
  rcases written outcome with thrown | result
  · cases thrown <;> simp [errorOf, Except.map]
  · simp

/-- An outcome that comes to an envelope: a result that is written, or something raised that has a
text. -/
def Told : Except Thrown Result → Prop
  | .ok result => ∃ j, result.encode = .ok j
  | .error thrown => ∃ e, errorOf thrown = .ok e

/-- The envelope of an outcome has a result exactly if the outcome has one. -/
theorem Told.respond {outcome : Except Thrown Result} (told : Told outcome) (call : Call) :
    ∃ response, Dispatcher.respond call outcome = .ok response ∧
      response.error?.isNone = outcome.toBool := by
  rcases outcome with thrown | result
  · obtain ⟨e, explained⟩ := told
    refine ⟨.ofError e call.id, ?_, rfl⟩
    show (errorOf thrown).map _ = _
    rw [explained]
    rfl
  · obtain ⟨j, encoded⟩ := told
    refine ⟨.ofResult j call.id, ?_, rfl⟩
    rw [Dispatcher.respond, written, Except.bind, encoded]

theorem thrownOf_ne_textless (index : Nat) (fault : Shape.Fault) (message : Text) :
    thrownOf index fault ≠ .textless message := by
  cases fault <;> exact nofun

/-- What is raised for an argument has a text. -/
theorem coerceFrom_ne_textless (index : Nat) (shapes : List Shape) (params : List Json)
    (message : Text) : coerceFrom index shapes params ≠ .error (.textless message) := by
  intro raised
  induction shapes generalizing index params with
  | nil => cases raised
  | cons shape shapes ih =>
    cases params with
    | nil => cases raised
    | cons value values =>
      have rest := ih (index + 1) values
      rw [coerceFrom] at raised
      cases made : shape.coerce value with
      | error fault =>
        rw [made] at raised
        exact thrownOf_ne_textless index fault message (Except.error.inj raised)
      | ok argument =>
        rw [made] at raised
        cases coerced : coerceFrom (index + 1) shapes values with
        | error thrown =>
          rw [coerced] at raised rest
          exact rest raised
        | ok arguments =>
          rw [coerced] at raised
          cases raised

theorem told_of_coerceArguments {shapes : List Shape} {params : List Json} {thrown : Thrown}
    (refused : coerceArguments shapes params = .error thrown) : Told (.error thrown) := by
  cases thrown with
  | textless message => exact absurd refused (coerceFrom_ne_textless 0 shapes params message)
  | _ => exact ⟨_, rfl⟩

/-- Of a call only the operation can raise what has no text. -/
theorem follows_invoke_iff (d : Dispatcher Program) {body : Bytes} {call : Call}
    (asks : Asks body call) :
    ((invoke d.registry call).Follows (fun _ _ => True) fun _ outcome =>
      ∀ message, written outcome ≠ .error (.textless message)) ↔ d.Explains body := by
  unfold invoke
  cases found : d.registry.find? call.method with
  | none =>
    refine iff_of_true nofun fun call' method arguments asks' found' => ?_
    cases asks.unique asks'
    rw [found] at found'
    cases found'
  | some method =>
    dsimp only
    cases coerced : coerceArguments method.shapes call.params with
    | error thrown =>
      refine iff_of_true (fun message same => ?_)
        fun call' method' arguments asks' found' each => ?_
      · refine coerceFrom_ne_textless 0 method.shapes call.params message ?_
        rw [← Except.error.inj same]
        exact coerced
      · cases asks.unique asks'
        cases found.symm.trans found'
        rw [(coerceArguments_eq_ok_iff _ _ _).mpr each] at coerced
        cases coerced
    | ok arguments =>
      refine ⟨fun ends call' method' arguments' asks' found' each => ?_, fun explains =>
        explains call method arguments asks found ((coerceArguments_eq_ok_iff _ _ _).mp coerced)⟩
      cases asks.unique asks'
      cases found.symm.trans found'
      cases coerced.symm.trans ((coerceArguments_eq_ok_iff _ _ _).mpr each)
      exact ends

/-! ## Answering it -/

theorem follows_tell (d : Dispatcher Program) (stands : d.ObserverStands) (call : Call)
    (response : Response) :
    (d.tell call response).Follows (fun _ _ => True) fun _ outcome => outcome = .ok response := by
  unfold tell
  cases watched : d.observer? with
  | none => exact rfl
  | some observe =>
    have stood := stands observe watched (observedName d.registry call) response
    refine (Program.follows_bind _ _).mpr (stood.mono (fun _ _ => id) ?_)
    rintro g _ rfl
    exact rfl

/-- A call is answered exactly if what it gives has an envelope. -/
theorem follows_dispatch_iff (d : Dispatcher Program) (stands : d.ObserverStands) (call : Call) :
    ((d.dispatch call).Follows (fun _ _ => True) fun _ outcome => ∃ r, outcome = .ok r) ↔
      (invoke d.registry call).Follows (fun _ _ => True) fun _ outcome =>
        ∃ r, respond call outcome = .ok r := by
  unfold dispatch
  rw [Program.bind_def, Program.follows_bind]
  constructor
  · intro ends
    refine ends.mono (fun _ _ => id) fun h outcome ended => ?_
    cases made : respond call outcome with
    | ok response => exact ⟨response, rfl⟩
    | error escape =>
      rw [made] at ended
      exact ended
  · intro made
    refine made.mono (fun _ _ => id) ?_
    rintro h outcome ⟨r, made⟩
    rw [made]
    refine (d.follows_tell stands call r).mono (fun _ _ => id) ?_
    rintro g _ rfl
    exact ⟨r, rfl⟩

/-- What is not read is not answered. -/
theorem Answers.reads {d : Dispatcher Program} {body : Bytes} (answered : d.Answers body) :
    (read body).toBool = true := by
  have ends := answered.envelope
  rw [handle] at ends
  cases got : read body with
  | ok outcome => rfl
  | error escape =>
    rw [got] at ends
    obtain ⟨r, none, _⟩ := ends
    cases none

/-- An answer that is made is an envelope. -/
theorem answers_iff_follows (d : Dispatcher Program) (body : Bytes) :
    d.Answers body ↔
      (d.handle body).Follows (fun _ _ => True) fun _ outcome => ∃ r, outcome = .ok r := by
  constructor
  · rintro ⟨ends⟩
    exact ends.mono (fun _ _ => id) fun _ _ ⟨r, same, _⟩ => ⟨r, same⟩
  · intro ends
    exact ⟨ends.mono (fun _ _ => id) fun _ _ ⟨r, same⟩ => ⟨r, same, r.isEnvelope_toJson⟩⟩

/-- A body is answered with an envelope exactly if its numbers can be read and what its operation
raises has a text. Its integers can be read, unless it has a run of digits longer than an integer
may be. -/
theorem answers_iff (d : Dispatcher Program) (stands : d.ObserverStands) (body : Bytes) :
    (d.Answers body ↔ Legible body ∧ d.Explains body) ∧
      (ShortRuns body → ∀ digits, Json.ofBytes body ≠ .error (.integerTooLong digits)) := by
  refine ⟨?_, integers_of_shortRuns⟩
  rw [← toBool_read_iff]
  cases got : read body with
  | error escape =>
    refine iff_of_false (fun answered => ?_) fun given => Bool.false_ne_true given.1
    have reads := answered.reads
    rw [got] at reads
    cases reads
  | ok outcome =>
    rw [and_iff_right (show (Except.ok outcome : Except Escape _).toBool = true from rfl),
      answers_iff_follows, handle, got]
    cases reads_of_read got with
    | refusal nothing echoes =>
      refine iff_of_true ⟨_, rfl⟩ fun call method arguments asks => ?_
      exact (nothing call asks).elim
    | call asks echoes =>
      simp only [follows_dispatch_iff d stands, exists_respond_iff]
      exact d.follows_invoke_iff asks

/-- A call of the operation `m` under an identifier. -/
def bodyOf (identifier : Text) : Bytes :=
  Bytes.ofAscii
    ("\x7b\"jsonrpc\":\"2.0\",\"id\":" ++ identifier ++ ",\"method\":\"m\",\"params\":[]\x7d")

/-- A dispatcher whose one operation raises, and whose observer counts the call. -/
def failing : Dispatcher Program where
  registry := ⟨[("m", ⟨"m", [], fun _ => pure (.error (.uncoded "out of order"))⟩)]⟩
  observer? := some fun name _ => do
    let _ ← Program.request (.recordCall name none)
    return .ok ()

theorem observerStands_failing : failing.ObserverStands := by
  intro observe watched name response
  cases watched
  exact ⟨trivial, fun _ => rfl⟩

theorem explains_failing (body : Bytes) : failing.Explains body := by
  intro call method arguments _ found _
  have operation : method.handler = fun _ => pure (.error (.uncoded "out of order")) := by
    have same := List.mem_singleton.mp (Entries.mem_of_lookup found)
    rw [(Prod.mk.inj same).2]
  rw [operation]
  exact nofun

theorem answers_iff_failing : failing.ObserverStands ∧ failing.Answers (bodyOf "7") := by
  have legible : Legible (bodyOf "7") := (toBool_read_iff _).mp (by decide +kernel)
  exact ⟨observerStands_failing, (answers_iff failing observerStands_failing _).1.mpr
    ⟨legible, explains_failing _⟩⟩

/-- An identifier beyond the range of doubles: one followed by 309 zeros. -/
def longIdentifier : Text :=
  '1' :: List.replicate 309 '0'

theorem not_answers_long_identifier :
    failing.ObserverStands ∧ ¬ failing.Answers (bodyOf longIdentifier) := by
  refine ⟨observerStands_failing, fun answered => ?_⟩
  have escapes : (read (bodyOf longIdentifier)).toBool = false := by decide +kernel
  exact Bool.false_ne_true (escapes.symm.trans answered.reads)

end Dispatcher

end Paymaster

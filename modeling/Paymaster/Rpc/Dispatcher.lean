import Paymaster.Json.Encoding
import Paymaster.Rpc.Registry
import Paymaster.Rpc.Response

/-!
# The dispatcher

A body is decoded, its envelope is checked member by member, the operation is found, its
arguments are coerced, the operation is run and its result is written; every outcome becomes an
envelope. An observer is told the name and the envelope of every call whose own envelope was
valid.

Four things are no envelope: an integer in the body with too many digits, an identifier
beyond the range of doubles, something raised whose text cannot be made, and an observer that
fails.
-/

namespace Paymaster

/-- What keeps a body from being answered. -/
inductive Escape where
  | integerTooLong (digits : Nat)
  | idBeyondDouble
  | textless (message : Text)
  | observer (message : Text)
  deriving DecidableEq, Repr

def Escape.message : Escape → Text
  | .integerTooLong digits => Integer.tooLongMessage digits
  | .idBeyondDouble => Shape.beyondDoubleMessage
  | .textless message => message
  | .observer message => message

/-- The operations of an endpoint and the observer of its calls. -/
structure Dispatcher (m : Type → Type) where
  registry : Registry m
  observer? : Option (Text → Response → m (Except Text Unit)) := none

/-- A call as its envelope asks for it. -/
structure Call where
  id : RequestId
  method : Text
  params : List Json

namespace Dispatcher

/-! ## Envelopes -/

/-- The name that the observer is told if there is no operation. -/
def unknownName : Text := "<unknown>"

def idOf (value : Option Json) : Except Escape RequestId :=
  match value with
  | some (.int n) => if (Double.ofInt? n).isSome then .ok (.int n) else .error .idBeyondDouble
  | some (.double d) => .ok (if d.isFinite then .double d else .none)
  | _ => .ok .none

/-- The call of an object with a valid identifier. -/
def callOf (members : Entries Text Json) (id : RequestId) : Except RpcError Call :=
  match members.value? "jsonrpc" with
  | some (.text version) =>
    if version = "2.0" then
      match members.value? "method" with
      | some (.text method) =>
        match members.value? "params" with
        | some (.array params) => .ok { id, method, params }
        | _ => .error (.because .invalidParams "No or invalid 'params' in request")
      | _ => .error (.because .invalidRequest "No or invalid 'method' in request")
    else .error (.because .invalidRequest "Version of jsonrpc is not 2.0")
  | _ => .error (.because .invalidRequest "Version of jsonrpc is not 2.0")

/-- The call that a body asks for, or the envelope that answers a body without one. -/
def read (body : Bytes) : Except Escape (Except Response Call) :=
  match Json.ofBytes body with
  | .error .malformed =>
    .ok (.error (.ofError (.because .parse "Error parsing json request")))
  | .error (.integerTooLong digits) => .error (.integerTooLong digits)
  | .ok (.object members) =>
    match idOf (Entries.value? members "id") with
    | .error escape => .error escape
    | .ok .none =>
      .ok (.error (.ofError (.because .invalidRequest "No or invalid 'id' in request")))
    | .ok id =>
      match callOf members id with
      | .ok call => .ok (.ok call)
      | .error e => .ok (.error (.ofError e id))
  | .ok _ =>
    .ok (.error (.ofError (.because .invalidRequest "Request must be a single JSON object")))

/-! ## Arguments -/

/-- What is raised for a value that is not coerced. -/
def thrownOf (index : Nat) : Shape.Fault → Thrown
  | .mismatch shape => .coded (Shape.mismatchError index shape)
  | .unsupported => .coded Shape.unsupportedError
  | .beyondDouble => .uncoded Shape.beyondDoubleMessage

/-- The arguments from a position on, each in its declared shape; further ones are ignored. -/
def coerceFrom (index : Nat) : List Shape → List Json → Except Thrown (List Json)
  | [], _ => .ok []
  | _ :: _, [] =>
    .error (.coded (.because .invalidParams
      ("Param [" ++ Digits.decimal index ++ "] is missing")))
  | shape :: shapes, value :: values =>
    match shape.coerce value with
    | .error fault => .error (thrownOf index fault)
    | .ok argument =>
      match coerceFrom (index + 1) shapes values with
      | .error thrown => .error thrown
      | .ok arguments => .ok (argument :: arguments)

def coerceArguments (shapes : List Shape) (params : List Json) : Except Thrown (List Json) :=
  coerceFrom 0 shapes params

/-! ## Calls -/

/-- The coded error under which the caller sees what was raised, if its text can be made. -/
def errorOf : Thrown → Except Escape RpcError
  | .coded e => .ok e
  | .uncoded message => .ok { kind := .methodNotFound, message, data := .text message }
  | .textless message => .error (.textless message)

/-- What an outcome comes to once its result is written. -/
def written (outcome : Except Thrown Result) : Except Thrown Json :=
  outcome.bind Result.encode

/-- The envelope of what a call gave. -/
def respond (call : Call) (outcome : Except Thrown Result) : Except Escape Response :=
  match written outcome with
  | .ok result => .ok (.ofResult result call.id)
  | .error thrown => (errorOf thrown).map (.ofError · call.id)

variable {m : Type → Type} [Monad m]

/-- What a call gives, or what was raised. -/
def invoke (registry : Registry m) (call : Call) : m (Except Thrown Result) :=
  match registry.find? call.method with
  | none => pure (.error (.coded (.because .methodNotFound "Method not found")))
  | some method =>
    match coerceArguments method.shapes call.params with
    | .error thrown => pure (.error thrown)
    | .ok arguments => method.handler arguments

/-- The name under which a call is observed: the registered spelling. -/
def observedName (registry : Registry m) (call : Call) : Text :=
  match registry.find? call.method with
  | some method => method.name
  | none => unknownName

/-- Tells the observer the envelope of a call. -/
def tell (d : Dispatcher m) (call : Call) (response : Response) :
    m (Except Escape Response) :=
  match d.observer? with
  | none => pure (.ok response)
  | some observe => do
    match ← observe (observedName d.registry call) response with
    | .ok _ => pure (.ok response)
    | .error message => pure (.error (.observer message))

/-- Runs a call and tells the observer. -/
def dispatch (d : Dispatcher m) (call : Call) : m (Except Escape Response) := do
  match respond call (← invoke d.registry call) with
  | .ok response => d.tell call response
  | .error escape => pure (.error escape)

def handle (d : Dispatcher m) (body : Bytes) : m (Except Escape Response) :=
  match read body with
  | .error escape => pure (.error escape)
  | .ok (.error response) => pure (.ok response)
  | .ok (.ok call) => d.dispatch call

end Dispatcher

end Paymaster

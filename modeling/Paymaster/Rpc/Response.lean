import Paymaster.Rpc.Error

/-!
# Response envelopes

Every answer of the endpoint is an envelope: the version, the identifier of the request
if it had a valid one, and either a result or an error.
-/

namespace Paymaster

/-- The identifier of a request: a finite number, or none. -/
inductive RequestId where
  | none
  | int (n : Int)
  | double (d : Double)
  deriving DecidableEq, Repr

/-- The value under which an identifier is sent. -/
def RequestId.toJson : RequestId → Json
  | .none => .null
  | .int n => .int n
  | .double d => .double d

structure Response where
  id : RequestId
  outcome : Except RpcError Json

namespace Response

def ofError (e : RpcError) (id : RequestId := .none) : Response :=
  ⟨id, .error e⟩

def ofResult (result : Json) (id : RequestId) : Response :=
  ⟨id, .ok result⟩

/-- The error of an envelope, if it has one. -/
def error? (r : Response) : Option RpcError :=
  match r.outcome with
  | .ok _ => Option.none
  | .error e => some e

/-- The object under which an envelope is sent. -/
def toJson (r : Response) : Json :=
  .object
    [("jsonrpc", .text "2.0"), ("id", r.id.toJson),
     match r.outcome with
     | .ok result => ("result", result)
     | .error e => ("error", e.toJson)]

end Response

end Paymaster

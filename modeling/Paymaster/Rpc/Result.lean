import Paymaster.Rpc.Error

/-!
# Results of operations

What an operation gives, or what it raises instead. A plain value is sent as it is. A record is
sent as an object, each field under its alias if it has one and under its name otherwise; a
field that cannot be written raises.

What is raised is an error that is handed to the caller, or something that the caller sees the
text of. Making that text may raise in turn.
-/

namespace Paymaster

inductive Thrown where
  /-- An error that is handed to the caller as it is. -/
  | coded (e : RpcError)
  | uncoded (message : Text)
  /-- The text cannot be made; what making it raises has a message of its own. -/
  | textless (message : Text)
  deriving Repr

/-- A field of a record, with its value or what writing the value raises. -/
structure Result.Field where
  name : Text
  alias? : Option Text := none
  value : Except Thrown Json

inductive Result where
  | value (j : Json)
  | record (fields : List Result.Field)

namespace Result

/-- A field as a member of the object that is sent. -/
def Field.member (f : Field) : Except Thrown (Text × Json) :=
  f.value.map (f.alias?.getD f.name, ·)

/-- The value under which a result is sent. -/
def encode : Result → Except Thrown Json
  | .value j => .ok j
  | .record fields => .object <$> fields.mapM Field.member

end Result

end Paymaster

import Paymaster.Rpc.Result
import Paymaster.Rpc.Shape
import Paymaster.Text.LowerCase

/-!
# Registered operations

Operations are registered under names and found by name up to letter case. A name is
registered once; a later registration under a spelling with the same lower-case form is
refused and changes nothing. A declaration that names no shape is told in a warning and
registered with its operation, unless the warning cannot be made for want of its text.
-/

namespace Paymaster

/-- A registered operation, run in a monad. -/
structure Method (m : Type → Type) where
  name : Text
  shapes : List Shape
  handler : List Json → m (Except Thrown Result)

/-- The operations by the lower-case forms of their names, in the order of registration. -/
structure Registry (m : Type → Type) where
  entries : Entries Text (Method m) := []

inductive Registry.Fault where
  /-- The name is empty or no text. -/
  | noName
  | taken (name : Text)
  /-- A declared shape has no text; making it raises an error with this message. -/
  | textless (message : Text)
  deriving DecidableEq, Repr

namespace Registry

variable {m : Type → Type}

def Fault.message : Fault → Text
  | .noName => "Method name must be a non-empty string"
  | .taken name => "Method already registered: " ++ name
  | .textless message => message

/-- The operation with a name up to letter case. -/
def find? (registry : Registry m) (name : Text) : Option (Method m) :=
  registry.entries.lookup name.lower

def register (registry : Registry m) (name : Json) (shapes : List Shape)
    (handler : List Json → m (Except Thrown Result)) : Except Fault (Registry m) :=
  match name with
  | .text (c :: rest) =>
    let name : Text := c :: rest
    match registry.find? name with
    | some _ => .error (.taken name)
    | none =>
      match shapes.findSome? Shape.textFault? with
      | some message => .error (.textless message)
      | none => .ok ⟨registry.entries ++ [(name.lower, { name, shapes, handler })]⟩
  | _ => .error .noName

end Registry

end Paymaster

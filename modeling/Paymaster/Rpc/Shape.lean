import Paymaster.Json.Display
import Paymaster.Rpc.Error

/-!
# Parameter shapes

The shape that an operation declares for a parameter, and the coercion of a JSON value
into it. An integer shape takes integers and integral doubles within its range; a
number shape takes numbers; the other shapes take values of their own kind as they are.
Truth values are never numbers.
-/

namespace Paymaster

inductive Shape where
  /-- Integers of a number of bits, with or without sign, under their declared name. -/
  | integer (name : String) (bits : Nat) (signed : Bool)
  | number (name : String)
  | text
  | any
  | list
  | map
  /-- A declaration that names no shape, with its text or what making the text raises; calls of
  its operation fail. -/
  | unsupported (text : Except Text Text)
  deriving Repr

namespace Shape

/-! ## Names -/

def named : List (Text × Shape) :=
  [("int", .integer "int" 64 true), ("int8", .integer "int8" 8 true),
   ("int16", .integer "int16" 16 true), ("int32", .integer "int32" 32 true),
   ("int64", .integer "int64" 64 true), ("uint", .integer "uint" 64 false),
   ("uint8", .integer "uint8" 8 false), ("uint16", .integer "uint16" 16 false),
   ("uint32", .integer "uint32" 32 false), ("uint64", .integer "uint64" 64 false),
   ("float32", .number "float32"), ("float64", .number "float64"), ("string", .text),
   ("any", .any), ("list", .list), ("map", .map)]

/-- The declaration of a value that names no shape. It has no text if an integer in it has too
many digits. -/
def ofUnnamed (declared : Json) : Shape :=
  .unsupported
    (if declared.isWritten then .ok declared.display else .error Integer.unwrittenMessage)

def ofJson (declared : Json) : Shape :=
  match declared with
  | .text name => (named.lookup name).getD (ofUnnamed declared)
  | _ => ofUnnamed declared

/-- What making the text of a declaration raises, if it has none. -/
def textFault? : Shape → Option Text
  | .unsupported (.error message) => some message
  | _ => none

/-- Declarations with a coercion. -/
def isSupported : Shape → Bool
  | .unsupported _ => false
  | _ => true

/-- The name of a shape in messages. -/
def name : Shape → Text
  | .integer name _ _ => name
  | .number name => name
  | .text => "string"
  | .any => "any"
  | .list => "list"
  | .map => "map"
  | .unsupported _ => "unsupported"

/-! ## Ranges -/

def low (bits : Nat) (signed : Bool) : Int :=
  if signed then -(Nat.pow 2 (bits - 1) : Int) else 0

def high (bits : Nat) (signed : Bool) : Int :=
  if signed then (Nat.pow 2 (bits - 1) : Int) - 1 else (Nat.pow 2 bits : Int) - 1

/-- The integer that a value is equal to. -/
def integral? : Json → Option Int
  | .int n => some n
  | .double d => d.toInt?
  | _ => none

/-! ## Coercion -/

inductive Fault where
  /-- The value does not have the shape. -/
  | mismatch (shape : Shape)
  | unsupported
  /-- The integer lies outside the range of doubles. -/
  | beyondDouble
  deriving Repr

def coerce (shape : Shape) (value : Json) : Except Fault Json :=
  match shape with
  | .unsupported _ => .error .unsupported
  | .any => .ok value
  | .integer _ bits signed =>
    match integral? value with
    | some n =>
      if low bits signed ≤ n ∧ n ≤ high bits signed then .ok (.int n)
      else .error (.mismatch shape)
    | none => .error (.mismatch shape)
  | .number _ =>
    match value with
    | .double d => .ok (.double d)
    | .int n =>
      match Double.ofInt? n with
      | some d => .ok (.double d)
      | none => .error .beyondDouble
    | _ => .error (.mismatch shape)
  | .text => match value with
    | .text t => .ok (.text t)
    | _ => .error (.mismatch shape)
  | .list => match value with
    | .array items => .ok (.array items)
    | _ => .error (.mismatch shape)
  | .map => match value with
    | .object members => .ok (.object members)
    | _ => .error (.mismatch shape)

/-- The wording for an integer that no double is near to. -/
def beyondDoubleMessage : Text :=
  "int too large to convert to float"

/-- The coded error for a value that does not have its declared shape. -/
def mismatchError (index : Int) (shape : Shape) : RpcError :=
  .because .invalidParams
    ("Param [" ++ Digits.signedDecimal index ++ "] can't be converted to " ++ shape.name)

/-- The coded error for a shape without a coercion. -/
def unsupportedError : RpcError :=
  .because .internal "Invalid method definition"

/-! ## Coercion in a place -/

/-- What is raised for a value in a place. -/
inductive Refusal where
  | coded (e : RpcError)
  /-- The integer lies outside the range of doubles. -/
  | beyondDouble
  /-- The number of the place has too many digits to stand in a message. -/
  | unwritten
  deriving Repr

def Fault.refusal (index : Int) : Fault → Refusal
  | .mismatch shape =>
    if (Integer.write? index).isSome then .coded (mismatchError index shape) else .unwritten
  | .unsupported => .coded unsupportedError
  | .beyondDouble => .beyondDouble

/-- The value of a place in its declared shape. -/
def coerceAt (index : Int) (shape : Shape) (value : Json) : Except Refusal Json :=
  (shape.coerce value).mapError (Fault.refusal index)

end Shape

end Paymaster

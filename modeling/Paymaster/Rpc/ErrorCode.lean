import Paymaster.Json.Display
import Paymaster.Number.Integer

/-!
# Codes of errors

The code of an error as an envelope carries it. The service itself sends integers, but an
envelope may carry any scalar. Codes that are equal as numbers are the same code, whatever
they are written like.
-/

namespace Paymaster

inductive ErrorCode where
  | absent
  | truth (b : Bool)
  | int (n : Int)
  | double (d : Double)
  | text (t : Text)
  deriving Repr

namespace ErrorCode

/-- Why an envelope has no outcome that can be counted. -/
inductive Fault where
  | noMembers (found : Json)
  /-- A code is an array or an object. -/
  | noScalar (found : Json)
  deriving Repr

def Fault.message : Fault → Text
  | .noMembers found => "'" ++ found.kindWord ++ "' object has no attribute 'get'"
  | .noScalar found => "unhashable type: '" ++ found.kindWord ++ "'"

def ofJson (value : Json) : Except Fault ErrorCode :=
  match value with
  | .null => .ok .absent
  | .bool b => .ok (.truth b)
  | .int n => .ok (.int n)
  | .double d => .ok (.double d)
  | .text t => .ok (.text t)
  | other => .error (.noScalar other)

/-- The code of the error of an envelope; none if the envelope has no error. -/
def ofEnvelope (envelope : Json) : Except Fault (Option ErrorCode) :=
  match envelope with
  | .object members =>
    match (Entries.value? members "error").getD .null with
    | .null => .ok none
    | .object members => some <$> ofJson ((Entries.value? members "code").getD .null)
    | other => .error (.noMembers other)
  | other => .error (.noMembers other)

/-- The integer that a code is equal to. -/
def toInt? : ErrorCode → Option Int
  | .truth b => some (if b then 1 else 0)
  | .int n => some n
  | .double d => d.toInt?
  | _ => none

def same (a b : ErrorCode) : Bool :=
  match a.toInt?, b.toInt? with
  | some n, some k => n = k
  | none, none =>
    match a, b with
    | .absent, .absent => true
    | .double d, .double e => d = e
    | .text t, .text u => t = u
    | _, _ => false
  | _, _ => false

instance : BEq ErrorCode := ⟨same⟩

def display : ErrorCode → Text
  | .absent => Json.null.display
  | .truth b => (Json.bool b).display
  | .int n => (Json.int n).display
  | .double d => (Json.double d).display
  | .text t => t

/-- Codes with a written form; an integer may have too many digits for one. -/
def isWritten : ErrorCode → Bool
  | .int n => (Integer.write? n).isSome
  | _ => true

end ErrorCode

end Paymaster

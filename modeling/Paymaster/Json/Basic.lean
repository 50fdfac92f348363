import Paymaster.Entries
import Paymaster.Number.Double
import Paymaster.Text.Basic

/-!
# JSON values

Integers and doubles are different values, integers have any size, and an object keeps
its members in the order in which their names first appeared.
-/

namespace Paymaster

inductive Json where
  | null
  | bool (b : Bool)
  | int (n : Int)
  | double (d : Double)
  | text (t : Text)
  | array (items : List Json)
  | object (members : List (Text × Json))
  deriving Repr

namespace Json

/-! ## Members -/

/-- The value of a name in an object; other values have no members. -/
def get? (j : Json) (name : Text) : Option Json :=
  match j with
  | .object members => Entries.value? members name
  | _ => none

def asText? : Json → Option Text
  | .text t => some t
  | _ => none

/-- The truth value that a value is. -/
def asBool? : Json → Option Bool
  | .bool b => some b
  | _ => none

def asInt? : Json → Option Int
  | .int n => some n
  | _ => none

def asArray? : Json → Option (List Json)
  | .array items => some items
  | _ => none

def asObject? : Json → Option (Entries Text Json)
  | .object members => some members
  | _ => none

/-! ## Parts -/

mutual

/-- A value and the values inside it. -/
def parts : Json → List Json
  | .array items => .array items :: partsOfItems items
  | .object members => .object members :: partsOfMembers members
  | j => [j]

/-- The parts of some items. -/
def partsOfItems : List Json → List Json
  | [] => []
  | item :: rest => parts item ++ partsOfItems rest

/-- The parts of the values of some members. -/
def partsOfMembers : List (Text × Json) → List Json
  | [] => []
  | (_, value) :: rest => parts value ++ partsOfMembers rest

end

end Json

end Paymaster

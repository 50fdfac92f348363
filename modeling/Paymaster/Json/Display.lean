import Paymaster.Json.Writer
import Paymaster.Text.Quoted

/-!
# Displaying JSON values

The form in which a value appears inside a message: `None`, `True` and `False` for the
words, quoted texts inside arrays and objects, and a text on its own as it is. Where the
value itself does not matter, a message names its kind.
-/

namespace Paymaster.Json

mutual

/-- A value inside an array or object. -/
def displayInner : Json → Text
  | .null => "None"
  | .bool true => "True"
  | .bool false => "False"
  | .int n => Digits.signedDecimal n
  | .double d => d.text
  | .text t => t.quoted
  | .array items => Text.within '[' ']' (displayItems items)
  | .object members => Text.within '{' '}' (displayMembers members)

def displayItems : List Json → Text
  | [] => []
  | [item] => displayInner item
  | item :: rest => displayInner item ++ Layout.spaced.comma ++ displayItems rest

def displayMembers : List (Text × Json) → Text
  | [] => []
  | [(name, value)] => name.quoted ++ Layout.spaced.colon ++ displayInner value
  | (name, value) :: rest =>
    name.quoted ++ Layout.spaced.colon ++ displayInner value ++ Layout.spaced.comma
      ++ displayMembers rest

end

def display : Json → Text
  | .text t => t
  | j => displayInner j

/-- The word for the kind of a value. -/
def kindWord : Json → Text
  | .null => "NoneType"
  | .bool _ => "bool"
  | .int _ => "int"
  | .double _ => "float"
  | .text _ => "str"
  | .array _ => "list"
  | .object _ => "dict"

end Paymaster.Json

import Paymaster.Json.Basic
import Paymaster.Number.Integer
import Paymaster.Number.Shortest

/-!
# Writing JSON

A value is written on one line, in one of two layouts. `Json.write` writes ASCII with a comma
and a space between items, a colon and a space after a name; everything else than printable
ASCII is escaped, a code point beyond sixteen bits as two units, so no text can break the
line. `Json.writeCompact` leaves the spaces out and escapes nothing but quotes, backslashes
and controls.
-/

namespace Paymaster.Json

structure Layout where
  comma : Text
  /-- What stands between a name and its value. -/
  colon : Text
  /-- Code points beyond printable ASCII are escaped. -/
  escapes : Bool

def Layout.spaced : Layout := ⟨[',', ' '], [':', ' '], true⟩

/-- The layout without spaces, in any code points. -/
def Layout.compact : Layout := ⟨[','], [':'], false⟩

/-! ## Strings -/

def escapedUnit (n : Nat) : Text :=
  '\\' :: 'u' :: Digits.padded 16 4 n

/-- The written form of one code point. -/
def writtenPoint (layout : Layout) (c : CodePoint) : Text :=
  if c = '"' then ['\\', '"']
  else if c = '\\' then ['\\', '\\']
  else if c = '\x08' then ['\\', 'b']
  else if c = '\x0c' then ['\\', 'f']
  else if c = '\n' then ['\\', 'n']
  else if c = '\r' then ['\\', 'r']
  else if c = '\t' then ['\\', 't']
  else if 32 ≤ c.val ∧ (c.val < 127 ∨ !layout.escapes) then [c]
  else if c.val < 0x10000 then escapedUnit c.val
  else
    escapedUnit (0xD800 + (c.val - 0x10000) / 0x400)
      ++ escapedUnit (0xDC00 + (c.val - 0x10000) % 0x400)

def writeText (layout : Layout) (t : Text) : Text :=
  Text.within '"' '"' (t.flatMap (writtenPoint layout))

/-! ## Values -/

mutual

def writeIn (layout : Layout) : Json → Text
  | .null => "null"
  | .bool true => "true"
  | .bool false => "false"
  | .int n => Digits.signedDecimal n
  | .double d => d.textWith "Infinity" "NaN"
  | .text t => writeText layout t
  | .array items => Text.within '[' ']' (writeItems layout items)
  | .object members => Text.within '{' '}' (writeMembers layout members)

def writeItems (layout : Layout) : List Json → Text
  | [] => []
  | [item] => writeIn layout item
  | item :: rest => writeIn layout item ++ layout.comma ++ writeItems layout rest

def writeMembers (layout : Layout) : List (Text × Json) → Text
  | [] => []
  | [(name, value)] => writeText layout name ++ layout.colon ++ writeIn layout value
  | (name, value) :: rest =>
    writeText layout name ++ layout.colon ++ writeIn layout value ++ layout.comma
      ++ writeMembers layout rest

end

/-- A value on one line of ASCII. -/
def write (j : Json) : Text :=
  writeIn .spaced j

/-- A value on one line without spaces between its parts. -/
def writeCompact (j : Json) : Text :=
  writeIn .compact j

/-! ## Written integers -/

/-- A value that is no integer with too many digits. -/
def isShort : Json → Bool
  | .int n => (Integer.write? n).isSome
  | _ => true

/-- No integer in a value has too many digits to be written. -/
def isWritten (j : Json) : Bool :=
  j.parts.all isShort

/-! ## Finite values -/

mutual

/-- Every double in a value is finite. -/
def isFinite : Json → Bool
  | .double d => d.isFinite
  | .array items => areFinite items
  | .object members => membersAreFinite members
  | _ => true

/-- Every double in some items is finite. -/
def areFinite : List Json → Bool
  | [] => true
  | item :: rest => isFinite item && areFinite rest

/-- Every double in the values of members is finite. -/
def membersAreFinite : List (Text × Json) → Bool
  | [] => true
  | (_, value) :: rest => isFinite value && membersAreFinite rest

end

end Paymaster.Json

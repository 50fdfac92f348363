import Paymaster.Bytes.Hex
import Paymaster.Json.Basic
import Paymaster.Number.Integer

/-!
# Quantities and byte strings of a user operation

A quantity is a JSON number with an integral value, or a text that is hexadecimal behind
`0x` or decimal; it lies below 2^256. A byte string is a hexadecimal text behind `0x`.
Limits are written back as byte strings with as few bytes as possible.
-/

namespace Paymaster

/-! ## Quantities -/

inductive Quantity.Fault where
  /-- The value is neither a number nor a text. -/
  | notNumeric
  /-- The text is neither hexadecimal behind `0x` nor made of digits. -/
  | notDigits
  /-- The text looks like a number, but is none. -/
  | integer (fault : Integer.Fault)
  /-- The number is negative or too large. -/
  | outOfRange
  deriving DecidableEq, Repr

namespace Quantity

def Fault.message : Fault → Text
  | .notNumeric => "quantity must be a number or hex string"
  | .notDigits => "quantity must be hex (0x...) or decimal"
  | .integer fault => fault.message
  | .outOfRange => "quantity out of uint256 range"

/-- The numbers of a word: those below 2^256. -/
def bound : Nat := Nat.pow 2 256

/-- The integer that a text denotes: in base 16 behind `0x`, in base 10 if it has digits
alone. A mark without digits is zero. -/
def ofText (t : Text) : Except Fault Int :=
  let t := t.strip
  if (Digits.afterMark? t).isSome then
    if 2 < t.length then (Integer.read 16 t).mapError .integer else .ok 0
  else if t.isDigitForms then (Integer.read 10 t).mapError .integer
  else .error .notDigits

def integerOf : Json → Except Fault Int
  | .int n => .ok n
  | .double d =>
    match d.toInt? with
    | some n => .ok n
    | none => .error .notNumeric
  | .text t => ofText t
  | _ => .error .notNumeric

def read (j : Json) : Except Fault Nat :=
  match integerOf j with
  | .error fault => .error fault
  | .ok n => if n < 0 ∨ bound ≤ n then .error .outOfRange else .ok n.toNat

end Quantity

/-! ## Byte strings -/

/-- Why a value is no byte string. -/
inductive ByteString.Fault where
  /-- The value is no text behind `0x`. -/
  | unmarked
  | digits (fault : Hex.Fault)
  deriving DecidableEq, Repr

namespace ByteString

def Fault.message : Fault → Text
  | .unmarked => "byte strings must be 0x-prefixed hex"
  | .digits fault => fault.message

/-- The bytes that a value denotes; an empty text has none. -/
def read (j : Json) : Except Fault Bytes :=
  match j with
  | .text t =>
    let t := t.strip
    if t.isEmpty then .ok []
    else
      match Digits.afterMark? t with
      | some digits => (Hex.read digits).mapError .digits
      | none => .error .unmarked
  | _ => .error .unmarked

/-- A number as a byte string without leading zero bytes; zero has no bytes. -/
def ofNat (n : Nat) : Text :=
  Hex.ofBytes (Bytes.minimal n)

end ByteString

end Paymaster

import Paymaster.Bytes.Basic
import Paymaster.Text.Unencodable

/-!
# Hexadecimal texts

Bytes as pairs of hexadecimal digits. Writing uses lower case; reading takes either
case, adds a zero in front of an odd number of digits, and says what is wrong with a
text that has other code points in it.
-/

namespace Paymaster.Hex

/-! ## Writing -/

def ofByte (b : UInt8) : Text :=
  [CodePoint.ofDigit (b.toNat / 16), CodePoint.ofDigit (b.toNat % 16)]

def digits (b : Bytes) : Text :=
  b.flatMap ofByte

def ofBytes (b : Bytes) : Text :=
  '0' :: 'x' :: digits b

/-! ## Reading -/

inductive Fault where
  | beyondAscii (run : Unencodable)
  | notADigit
  deriving DecidableEq, Repr

def Fault.message : Fault → Text
  | .beyondAscii run => run.message "ascii" "ordinal not in range(128)"
  | .notADigit => "Non-hexadecimal digit found"

/-- A text without a leading `0x` or `0X`. -/
def dropMark (t : Text) : Text :=
  (Digits.afterMark? t).getD t

def pairs? : Text → Option Bytes
  | [] => some []
  | [_] => none
  | a :: b :: rest => do
    let high ← a.hexValue?
    let low ← b.hexValue?
    return UInt8.ofNat (high * 16 + low) :: (← pairs? rest)

/-- Digits with a zero in front if their number is odd. -/
def evened (t : Text) : Text :=
  if t.length % 2 = 1 then '0' :: t else t

def read (t : Text) : Except Fault Bytes :=
  let t := evened t
  match Unencodable.find? CodePoint.isAscii t with
  | some run => .error (.beyondAscii run)
  | none =>
    match pairs? t with
    | some b => .ok b
    | none => .error .notADigit

end Paymaster.Hex

import Paymaster.Number.Digits
import Paymaster.Text.Quoted

/-!
# Integers as texts

The written form of an integer in base 10 or 16: blanks around it, a sign, digits of
any script with single underscores between them, and in base 16 a leading `0x`. A
decimal text is limited in length, so that reading and writing it stay cheap; when an
integer is read, the two causes of failure are kept apart.
-/

namespace Paymaster.Integer

/-- Why a text is not read as an integer. -/
inductive Fault where
  /-- The text is no integer of the base. -/
  | malformed (base : Nat) (source : Text)
  /-- The text has more decimal digits than are read. -/
  | tooLong (digits : Nat)
  deriving DecidableEq, Repr

/-- The most decimal digits that are read or written. -/
def digitLimit : Nat := 4300

/-- The wording for a text with too many digits. -/
def tooLongMessage (digits : Nat) : Text :=
  "Exceeds the limit (4300 digits) for integer string conversion: value has "
    ++ Digits.decimal digits
    ++ " digits; use sys.set_int_max_str_digits() to increase the limit"

/-- The wording of a fault; of a long text only the first 200 code points are quoted. -/
def Fault.message : Fault → Text
  | .malformed base source =>
    "invalid literal for int() with base " ++ Digits.decimal base ++ ": "
      ++ source.quoted.take 200
  | .tooLong digits => tooLongMessage digits

/-! ## Scripts -/

/-- The ASCII form of a code point: decimal digits of any script become the digits `0` to
`9`, and blanks beyond ASCII become spaces. -/
def plainPoint (c : CodePoint) : CodePoint :=
  if c.val < 127 then c
  else if c.isBlank then ' '
  else
    match c.decimalValue? with
    | some d => CodePoint.ofDigit d
    | none => '?'

def plain (t : Text) : Text :=
  if t.isAscii then t else t.map plainPoint

/-! ## Digits -/

/-- The value of a digit of the base. -/
def digit? (base : Nat) (c : CodePoint) : Option Nat :=
  c.hexValue?.filter (· < base)

/-- The digits at the front and what follows them. Between two digits one underscore may
stand; `fresh` says that a digit has to follow. -/
def digitRun (base : Nat) : (fresh : Bool) → Text → Option (List Nat × Text)
  | fresh, [] => if fresh then none else some ([], [])
  | fresh, c :: rest =>
    match digit? base c with
    | some d => (digitRun base false rest).map fun (ds, after) => (d :: ds, after)
    | none =>
      if fresh then none
      else if c = '_' then digitRun base true rest
      else some ([], c :: rest)

/-- What follows the mark of base 16; an underscore may set it off. -/
def afterBaseMark (base : Nat) (t : Text) : Text :=
  if base = 16 then
    match Digits.afterMark? t with
    | some rest => (Text.after? ['_'] rest).getD rest
    | none => t
  else t

/-- A sign at the front, and the rest. -/
def sign (t : Text) : Bool × Text :=
  match t with
  | [] => (false, [])
  | c :: rest => if c = '-' then (true, rest) else if c = '+' then (false, rest) else (false, t)

/-- The integer that a text denotes in a base. -/
def read (base : Nat) (t : Text) : Except Fault Int :=
  let (negative, body) := sign ((plain t).dropWhile CodePoint.isAsciiBlank)
  match digitRun base true (afterBaseMark base body) with
  | none => .error (.malformed base t)
  | some (digits, after) =>
    if base = 10 ∧ digitLimit < digits.length then .error (.tooLong digits.length)
    else if (after.dropWhile CodePoint.isAsciiBlank).isEmpty then
      let n : Int := Digits.value base digits
      .ok (if negative then -n else n)
    else .error (.malformed base t)

/-! ## Writing -/

/-- The decimal form of an integer, unless it has too many digits. -/
def write? (n : Int) : Option Text :=
  if n.natAbs < Nat.pow 10 digitLimit then some (Digits.signedDecimal n) else none

/-- The wording for an integer with too many digits. -/
def unwrittenMessage : Text :=
  "Exceeds the limit (4300 digits) for integer string conversion; "
    ++ "use sys.set_int_max_str_digits() to increase the limit"

end Paymaster.Integer

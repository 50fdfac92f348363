import Paymaster.Json.Basic
import Paymaster.Number.Integer

/-!
# Reading JSON

`Json.read` reads one value that fills a text. Beyond the standard it takes the words
`NaN`, `Infinity` and `-Infinity`, lets lone surrogates through, and of a repeated name
keeps the last value. A number is an integer exactly if it has neither fraction nor
exponent; an integer with more digits than are read is a fault of its own, which is
found before anything that follows it.
-/

namespace Paymaster.Json

/-- Why a text is not read as JSON. -/
inductive Fault where
  | malformed
  | integerTooLong (digits : Nat)
  deriving DecidableEq, Repr

def isGap (c : CodePoint) : Bool :=
  c = ' ' || c = '\t' || c = '\n' || c = '\r'

/-- A text without the blanks at its front. -/
def skipGap (t : Text) : Text :=
  t.dropWhile isGap

/-! ## Strings -/

/-- One element of a written string: a code point as it stands, or a sixteen-bit unit
given by its digits. -/
inductive Piece where
  | plain (c : CodePoint)
  | unit (n : Nat)
  deriving DecidableEq, Repr

/-- The text of pieces; a high unit and the low unit behind it make one code point. -/
def Piece.join : List Piece → Text
  | [] => []
  | .plain c :: rest => c :: Piece.join rest
  | [.unit n] => [CodePoint.ofNat n]
  | .unit n :: .plain c :: rest => CodePoint.ofNat n :: c :: Piece.join rest
  | .unit n :: .unit k :: rest =>
    if 0xD800 ≤ n ∧ n < 0xDC00 ∧ 0xDC00 ≤ k ∧ k < 0xE000 then
      CodePoint.ofNat (0x10000 + (n - 0xD800) * 0x400 + (k - 0xDC00)) :: Piece.join rest
    else CodePoint.ofNat n :: Piece.join (.unit k :: rest)

/-- The code point of a one-letter escape. -/
def escape? (c : CodePoint) : Option CodePoint :=
  if c = '"' ∨ c = '\\' ∨ c = '/' then some c
  else if c = 'b' then some '\x08'
  else if c = 'f' then some '\x0c'
  else if c = 'n' then some '\n'
  else if c = 'r' then some '\r'
  else if c = 't' then some '\t'
  else none

/-- The unit that four hexadecimal digits denote. -/
def unit? (a b c d : CodePoint) : Option Nat := do
  return Digits.value 16 [← a.hexValue?, ← b.hexValue?, ← c.hexValue?, ← d.hexValue?]

/-- The pieces of a string up to its closing quote, and what follows the quote. -/
def pieces : Text → Option (List Piece × Text)
  | [] => none
  | c :: rest =>
    if c = '"' then some ([], rest)
    else if c = '\\' then
      match rest with
      | [] => none
      | e :: rest =>
        if e = 'u' then
          match rest with
          | p :: q :: r :: s :: rest =>
            match unit? p q r s with
            | none => none
            | some n => (pieces rest).map fun (ps, after) => (.unit n :: ps, after)
          | _ => none
        else
          match escape? e with
          | none => none
          | some x => (pieces rest).map fun (ps, after) => (.plain x :: ps, after)
    else if c.val < 32 then none
    else (pieces rest).map fun (ps, after) => (.plain c :: ps, after)

/-- A string without its opening quote, and what follows it. -/
def readString (t : Text) : Option (Text × Text) :=
  (pieces t).map fun (ps, after) => (Piece.join ps, after)

/-! ## Numbers -/

/-- The digits at the front of a text, and the rest. -/
def digitSpan (t : Text) : Text × Text :=
  t.span CodePoint.isAsciiDigit

def digitsValue (t : Text) : Nat :=
  Digits.value 10 (t.map fun c => c.val - 48)

/-- The fraction at the front of a text: a point and one digit or more. -/
def fraction? : Text → Option (Text × Text)
  | [] => none
  | c :: rest =>
    if c = '.' then
      let (digits, after) := digitSpan rest
      if digits.isEmpty then none else some (digits, after)
    else none

/-- The exponent at the front of a text. -/
def exponent? : Text → Option (Int × Text)
  | [] => none
  | c :: rest =>
    if c = 'e' ∨ c = 'E' then
      let (negative, body) := Integer.sign rest
      let (digits, after) := digitSpan body
      if digits.isEmpty then none
      else
        let n : Int := digitsValue digits
        some (if negative then -n else n, after)
    else none

/-- The digits before the point: a zero alone, or digits that do not start with zero. -/
def wholeSpan (t : Text) : Text × Text :=
  match t with
  | [] => ([], [])
  | c :: rest => if c = '0' then ([c], rest) else digitSpan (c :: rest)

/-- The number at the front of a text, without its sign, and what follows it. -/
def readNumber (negative : Bool) (t : Text) : Except Fault (Json × Text) :=
  let (whole, rest) := wholeSpan t
  if whole.isEmpty then .error .malformed
  else
    match fraction? rest with
    | some (digits, rest) =>
      let (exponent, rest) := (exponent? rest).getD (0, rest)
      let d := Double.ofDecimal negative (digitsValue (whole ++ digits)) (exponent - digits.length)
      .ok (.double d, rest)
    | none =>
      match exponent? rest with
      | some (exponent, rest) =>
        .ok (.double (Double.ofDecimal negative (digitsValue whole) exponent), rest)
      | none =>
        if Integer.digitLimit < whole.length then .error (.integerTooLong whole.length)
        else
          let n : Int := digitsValue whole
          .ok (.int (if negative then -n else n), rest)

/-- The words that stand for a value. -/
def words : Entries Text Json :=
  [("null", .null), ("true", .bool true), ("false", .bool false), ("NaN", .double .nan),
   ("Infinity", .double (.infinite false)), ("-Infinity", .double (.infinite true))]

/-- The word at the front of a text. -/
def word? (t : Text) : Option (Json × Text) :=
  words.findSome? fun (w, value) => (Text.after? w t).map (value, ·)

/-- A word or a number at the front of a text. -/
def readScalar (t : Text) : Except Fault (Json × Text) :=
  match word? t with
  | some found => .ok found
  | none =>
    match t with
    | [] => .error .malformed
    | c :: rest => if c = '-' then readNumber true rest else readNumber false (c :: rest)

/-! ## Values -/

mutual

/-- The value at the front of a text, and what follows it. The fuel bounds the steps. -/
def readValue : Nat → Text → Except Fault (Json × Text)
  | 0, _ => .error .malformed
  | _ + 1, [] => .error .malformed
  | fuel + 1, c :: rest =>
    if c = '"' then
      match readString rest with
      | some (t, after) => .ok (.text t, after)
      | none => .error .malformed
    else if c = '[' then
      match skipGap rest with
      | [] => .error .malformed
      | d :: after =>
        if d = ']' then .ok (.array [], after)
        else
          match readItems fuel (d :: after) with
          | .ok (items, after) => .ok (.array items, after)
          | .error e => .error e
    else if c = '{' then
      match skipGap rest with
      | [] => .error .malformed
      | d :: after =>
        if d = '}' then .ok (.object [], after)
        else
          match readMembers fuel [] (d :: after) with
          | .ok (members, after) => .ok (.object members, after)
          | .error e => .error e
    else readScalar (c :: rest)

/-- The items of an array up to its closing bracket. -/
def readItems : Nat → Text → Except Fault (List Json × Text)
  | 0, _ => .error .malformed
  | fuel + 1, t =>
    match readValue fuel t with
    | .error e => .error e
    | .ok (item, after) =>
      match skipGap after with
      | [] => .error .malformed
      | c :: rest =>
        if c = ']' then .ok ([item], rest)
        else if c = ',' then
          match readItems fuel (skipGap rest) with
          | .ok (items, after) => .ok (item :: items, after)
          | .error e => .error e
        else .error .malformed

/-- The members of an object up to its closing brace, added to those already read. -/
def readMembers : Nat → Entries Text Json → Text → Except Fault (Entries Text Json × Text)
  | 0, _, _ => .error .malformed
  | _ + 1, _, [] => .error .malformed
  | fuel + 1, found, c :: rest =>
    if c = '"' then
      match readString rest with
      | none => .error .malformed
      | some (name, after) =>
        match skipGap after with
        | [] => .error .malformed
        | d :: rest =>
          if d = ':' then
            match readValue fuel (skipGap rest) with
            | .error e => .error e
            | .ok (value, after) =>
              match skipGap after with
              | [] => .error .malformed
              | d :: rest =>
                if d = '}' then .ok (found.put name value, rest)
                else if d = ',' then readMembers fuel (found.put name value) (skipGap rest)
                else .error .malformed
          else .error .malformed
    else .error .malformed

end

def read (t : Text) : Except Fault Json :=
  match readValue (2 * t.length + 2) (skipGap t) with
  | .error e => .error e
  | .ok (value, after) => if (skipGap after).isEmpty then .ok value else .error .malformed

end Paymaster.Json

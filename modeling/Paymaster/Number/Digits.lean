import Paymaster.Text.Classes

/-!
# Digits of a number

A number in a base of two or more as its digits, most significant first, and back.
`Digits.value` is the view: what a list of digits denotes.
-/

namespace Paymaster.Digits

/-! ## Lists of digits -/

/-- The number that digits denote, most significant first. -/
def value (base : Nat) (digits : List Nat) : Nat :=
  digits.foldl (fun n d => n * base + d) 0

/-- The digits of a number before those already found; the fuel bounds their number. -/
def collect (base : Nat) : Nat → Nat → List Nat → List Nat
  | 0, _, found => found
  | fuel + 1, n, found =>
    if n < base then n :: found else collect base fuel (n / base) (n % base :: found)

/-- The digits of a number without leading zeros; zero has the one digit zero. -/
def ofNat (base n : Nat) : List Nat :=
  collect base (n.log2 + 1) n []

/-! ## Written forms -/

/-- A number in a base, lower-case digits. -/
def text (base n : Nat) : Text :=
  (ofNat base n).map CodePoint.ofDigit

/-- A number in a base, with zeros in front up to a width. -/
def padded (base width n : Nat) : Text :=
  let t := text base n
  (List.replicate (width - t.length) '0' : Text) ++ t

/-- The decimal form of a natural number. -/
def decimal (n : Nat) : Text :=
  text 10 n

/-- The decimal form of an integer, with a sign if it is negative. -/
def signedDecimal : Int → Text
  | .ofNat n => decimal n
  | .negSucc n => '-' :: decimal (n + 1)

/-! ## Marks -/

/-- What follows the mark of hexadecimal digits, `0x` or `0X`. -/
def afterMark? (t : Text) : Option Text :=
  (Text.after? ['0', 'x'] t).or (Text.after? ['0', 'X'] t)

end Paymaster.Digits

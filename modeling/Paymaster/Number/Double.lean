import Paymaster.Number.Digits

/-!
# Doubles

The numbers of the binary interchange format with 64 bits, kept exactly: a sign, a
significand below 2^53 and an exponent of two. `Double.ofRatio` rounds a quotient to
the nearest double, ties to the even significand; every other conversion is made of it.
-/

namespace Paymaster

inductive Double where
  /-- The number `significand * 2 ^ exponent`, negated if `negative`; there are two zeros. -/
  | finite (negative : Bool) (significand : Nat) (exponent : Int)
  | infinite (negative : Bool)
  | nan
  deriving DecidableEq, Repr

namespace Double

/-! ## Rounding -/

/-- The exponent of the smallest positive double. -/
def minExponent : Int := -1074

def maxExponent : Int := 971

/-- A quotient rounded to the nearest integer, ties to even. -/
def roundDiv (num den : Nat) : Nat :=
  let q := num / den
  let r := num % den
  if 2 * r < den then q
  else if den < 2 * r then q + 1
  else q + q % 2

/-- The numerator and denominator of `num / den / 2 ^ e`. -/
def scaled (num den : Nat) (e : Int) : Nat × Nat :=
  if 0 ≤ e then (num, den * Nat.pow 2 e.toNat) else (num * Nat.pow 2 (-e).toNat, den)

/-- The nearest double to the quotient of two positive numbers. -/
def ofRatio (negative : Bool) (num den : Nat) : Double :=
  if num = 0 then .finite negative 0 minExponent
  else
    let guess : Int := num.log2 - den.log2 - 52
    let (n, d) := scaled num den guess
    let e := max minExponent (if n / d < Nat.pow 2 52 then guess - 1 else guess)
    let (n, d) := scaled num den e
    let m := roundDiv n d
    let (m, e) := if m = Nat.pow 2 53 then (Nat.pow 2 52, e + 1) else (m, e)
    if maxExponent < e then .infinite negative else .finite negative m e

/-! ## Conversions -/

/-- The nearest double to `significand * 10 ^ exponent`. Exponents far outside the range
of doubles are decided before any power is computed. -/
def ofDecimal (negative : Bool) (significand : Nat) (exponent : Int) : Double :=
  let magnitude : Int := (Digits.ofNat 10 significand).length + exponent
  if significand = 0 ∨ magnitude < -400 then .finite negative 0 minExponent
  else if 400 < magnitude then .infinite negative
  else if 0 ≤ exponent then ofRatio negative (significand * Nat.pow 10 exponent.toNat) 1
  else ofRatio negative significand (Nat.pow 10 (-exponent).toNat)

/-- The nearest double to an integer, if the integer is within range. -/
def ofInt? (n : Int) : Option Double :=
  match ofRatio (n < 0) n.natAbs 1 with
  | .finite negative m e => some (.finite negative m e)
  | _ => none

def isFinite : Double → Bool
  | .finite _ _ _ => true
  | _ => false

def isPositive : Double → Bool
  | .finite negative m _ => !negative && m != 0
  | .infinite negative => !negative
  | .nan => false

/-- The integer part of a double, the fraction dropped. -/
def truncate? : Double → Option Int
  | .finite negative m e =>
    let size : Nat := if 0 ≤ e then m * Nat.pow 2 e.toNat else m / Nat.pow 2 (-e).toNat
    some (if negative then -(size : Int) else size)
  | _ => none

/-- The integer that a double is equal to. -/
def toInt? : Double → Option Int
  | .finite negative m e =>
    if 0 ≤ e ∨ m % Nat.pow 2 (-e).toNat = 0 then truncate? (.finite negative m e) else none
  | _ => none

/-! ## Rounded results -/

/-- The product with a natural number, rounded. -/
def timesNat (d : Double) (k : Nat) : Double :=
  match d with
  | .finite negative m e =>
    let (n, den) := scaled (m * k) 1 (-e)
    ofRatio negative n den
  | d => d

/-- The double nearest to the multiple of a hundredth that is nearest to a double. -/
def roundHundredths (d : Double) : Double :=
  match d with
  | .finite negative m e =>
    let (n, den) := scaled (m * 100) 1 (-e)
    ofRatio negative (roundDiv n den) 100
  | d => d

end Double

end Paymaster

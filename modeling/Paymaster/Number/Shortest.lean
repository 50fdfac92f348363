import Paymaster.Number.Double

/-!
# The shortest text of a double

A double is written with the fewest decimal digits that read back as the same double,
and of those texts with the one nearest to it. `Double.shortest` finds the digits on
the decimal grids from the coarsest on; `Double.text` lays them out.
-/

namespace Paymaster.Double

/-! ## Digits -/

/-- The point of a decimal grid inside an interval that is nearest to a value; of two that
are equally near the even one. All numbers but the point are counted in units of `num / den`
grid steps; the ends belong to the interval if `closed`. -/
def gridPoint? (closed : Bool) (low value high num den : Nat) : Option Nat :=
  let below := value * num / den
  let inside (point : Nat) : Bool :=
    if closed then low * num ≤ point * den && point * den ≤ high * num
    else low * num < point * den && point * den < high * num
  let nearest := Double.roundDiv (value * num) den
  if inside nearest then some nearest
  else if inside below then some below
  else if inside (below + 1) then some (below + 1)
  else none

/-- The first grid with a point inside the interval, from a power of ten downwards, with
that point. -/
def searchGrid (closed : Bool) (low value high : Nat) (unit : Int) : Nat → Int → Nat × Int
  | 0, scale => (value, scale)
  | fuel + 1, scale =>
    let num := Nat.pow 2 unit.toNat * Nat.pow 10 (-scale).toNat
    let den := Nat.pow 2 (-unit).toNat * Nat.pow 10 scale.toNat
    match gridPoint? closed low value high num den with
    | some point => (point, scale)
    | none => searchGrid closed low value high unit fuel (scale - 1)

/-- The shortest digits of a positive double, as a number and a power of ten. The numbers
that round to the double lie half a step below and above it; below a power of two the
steps are half as wide. -/
def shortest (m : Nat) (e : Int) : Nat × Int :=
  let narrow := m = Nat.pow 2 52 ∧ minExponent < e
  let low := if narrow then 4 * m - 1 else 4 * m - 2
  let exponent : Int := (e + m.log2) * 30103 / 100000
  searchGrid (m % 2 = 0) low (4 * m) (4 * m + 2) (e - 2) 20 (exponent + 1)

/-! ## Layout -/

/-- Drops the zeros at the end of a list of digits. -/
def dropTrailingZeros (digits : List Nat) : List Nat :=
  (digits.reverse.dropWhile (· = 0)).reverse

/-- Digits with a decimal point after the first `point` of them, zeros filling up either side. -/
def positional (digits : List Nat) (point : Int) : Text :=
  let written := digits.map CodePoint.ofDigit
  if point ≤ 0 then ("0." : Text) ++ (List.replicate (-point).toNat '0' : Text) ++ written
  else
    let n := point.toNat
    let whole := written.take n ++ (List.replicate (n - written.length) '0' : Text)
    let fraction := written.drop n
    whole ++ "." ++ (if fraction.isEmpty then (['0'] : Text) else fraction)

/-- Digits with a point after the first, and an exponent with a sign and two digits or more. -/
def scientific (digits : List Nat) (exponent : Int) : Text :=
  let written := digits.map CodePoint.ofDigit
  let fraction : Text := match written.drop 1 with
    | [] => []
    | rest => "." ++ rest
  let sign : Text := if exponent < 0 then "-" else "+"
  written.take 1 ++ fraction ++ "e" ++ sign ++ Digits.padded 10 2 exponent.natAbs

/-- The text of a finite double: positional from `0.0001` up to below `1e16`, otherwise
with an exponent. -/
def finiteText (negative : Bool) (m : Nat) (e : Int) : Text :=
  let body : Text :=
    if m = 0 then "0.0"
    else
      let (point, scale) := shortest m e
      let digits := Digits.ofNat 10 point
      let exponent : Int := digits.length + scale - 1
      let kept := dropTrailingZeros digits
      if -4 ≤ exponent ∧ exponent < 16 then positional kept (exponent + 1)
      else scientific kept exponent
  if negative then "-" ++ body else body

/-- The text of a double, with the given words for what is not finite. -/
def textWith (infinity undefined : Text) : Double → Text
  | .finite negative m e => finiteText negative m e
  | .infinite false => infinity
  | .infinite true => "-" ++ infinity
  | .nan => undefined

def text (d : Double) : Text :=
  d.textWith "inf" "nan"

end Paymaster.Double

import Paymaster.Text.Tables.Digits
import Paymaster.Text.Tables.Unprintable

/-!
# Classes of code points

Blanks, digits and printable code points, for all scripts. Three classes of digit
are kept apart: decimal digits have a value and may stand in a number, digit forms
only count as digits, and hexadecimal digits are ASCII alone.
-/

namespace Paymaster.CodePoint

/-! ## Blanks -/

/-- The blanks that are removed around a text: ASCII controls 9 to 13 and 28 to 31, the
space, and the separators of Unicode. -/
def isBlank (c : CodePoint) : Bool :=
  inRanges
    [(9, 13), (28, 32), (0x85, 0x85), (0xA0, 0xA0), (0x1680, 0x1680), (0x2000, 0x200A),
     (0x2028, 0x2029), (0x202F, 0x202F), (0x205F, 0x205F), (0x3000, 0x3000)] c

/-- The ASCII blanks: the space and controls 9 to 13. -/
def isAsciiBlank (c : CodePoint) : Bool :=
  c = ' ' || (9 ≤ c.val && c.val ≤ 13)

/-! ## Digits -/

def isAsciiDigit (c : CodePoint) : Bool :=
  48 ≤ c.val && c.val ≤ 57

/-- The value of a decimal digit of any script. -/
def decimalValue? (c : CodePoint) : Option Nat :=
  if c.isAscii then
    if c.isAsciiDigit then some (c.val - 48) else none
  else
    (rangeOf? decimalRanges c).map fun run => (c.val - run.1) % 10

/-- Decimal digits and digit forms such as superscripts. -/
def isDigitForm (c : CodePoint) : Bool :=
  if c.isAscii then c.isAsciiDigit else inRanges digitRanges c

/-- The value of a hexadecimal digit of either letter case. -/
def hexValue? (c : CodePoint) : Option Nat :=
  if 48 ≤ c.val ∧ c.val ≤ 57 then some (c.val - 48)
  else if 97 ≤ c.val ∧ c.val ≤ 102 then some (c.val - 87)
  else if 65 ≤ c.val ∧ c.val ≤ 70 then some (c.val - 55)
  else none

/-- Digits `0` to `9` and letters `a` to `f` of either case. -/
def isHexDigit (c : CodePoint) : Bool :=
  c.hexValue?.isSome

/-- The lower-case digit of a value below 36. -/
def ofDigit (d : Nat) : CodePoint :=
  if d < 10 then ofNat (48 + d) else ofNat (87 + d)

/-! ## Printable code points -/

/-- Code points that are written as themselves inside a quoted text. -/
def isPrintable (c : CodePoint) : Bool :=
  if c.isAscii then 32 ≤ c.val && c.val < 127 else !inRanges unprintableRanges c

end Paymaster.CodePoint

namespace Paymaster.Text

def strip (t : Text) : Text :=
  t.trim CodePoint.isBlank

def isAscii (t : Text) : Bool :=
  t.all CodePoint.isAscii

/-- At least one code point, and all of them digits or digit forms. -/
def isDigitForms (t : Text) : Bool :=
  !t.isEmpty && t.all CodePoint.isDigitForm

end Paymaster.Text

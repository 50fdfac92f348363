import Paymaster.Number.Digits
import Paymaster.Text.Classes

/-!
# Quoted texts

A quoted text stands between quotes, with escapes for what has no printed form. The
quote is the single one unless the text holds a single and no double quote; a
backslash and the quote itself are escaped.
-/

namespace Paymaster

/-- The escape that names a code point by its number. -/
def CodePoint.escaped (c : CodePoint) : Text :=
  if c.val < 0x100 then "\\x" ++ Digits.padded 16 2 c.val
  else if c.val < 0x10000 then "\\u" ++ Digits.padded 16 4 c.val
  else "\\U" ++ Digits.padded 16 8 c.val

namespace Text

def quoteOf (t : Text) : CodePoint :=
  if t.contains '\'' && !t.contains '"' then '"' else '\''

/-- The written form of one code point between the given quotes. -/
def quotedPoint (quote c : CodePoint) : Text :=
  if c = quote ∨ c = '\\' then ['\\', c]
  else if c = '\t' then ['\\', 't']
  else if c = '\n' then ['\\', 'n']
  else if c = '\r' then ['\\', 'r']
  else if c.isPrintable then [c]
  else c.escaped

def quoted (t : Text) : Text :=
  Text.within t.quoteOf t.quoteOf (t.flatMap (quotedPoint t.quoteOf))

end Text

end Paymaster

import Paymaster.Bytes.Basic
import Paymaster.Text.Quoted

/-!
# Quoted bytes

Bytes inside a message stand between quotes behind a `b`. A byte that is a printable ASCII
code point is written as in a quoted text; any other is written by its number.
-/

namespace Paymaster

/-- The written form of one byte between the given quotes. -/
def UInt8.quotedPoint (quote : CodePoint) (b : UInt8) : Text :=
  let c := CodePoint.ofNat b.toNat
  if c.isAscii then Text.quotedPoint quote c else c.escaped

def Bytes.quoted (b : Bytes) : Text :=
  let quote := Text.quoteOf (b.map fun x => CodePoint.ofNat x.toNat)
  'b' :: Text.within quote quote (b.flatMap (UInt8.quotedPoint quote))

end Paymaster

import Paymaster.Bytes.Quoted
import Paymaster.Chain.Abi

/-!
# Arguments that do not fit

The report on a call that is not made because a number does not fit its place: which
function was meant, of which types the arguments are, and for each argument whether it
would do.
-/

namespace Paymaster

namespace UserOperation.Field

/-- The word for the kind of a member. Bytes of the size of an address go by the word for
addresses. -/
def kindWord : Field → Text
  | .address _ => "address"
  | .quantity _ => "int"
  | .bytes b => if b.length = 20 then "address" else "bytes"

def display : Field → Text
  | .address a => Text.quoted a.checksum
  | .quantity n => Digits.decimal n
  | .bytes b => b.quoted

end UserOperation.Field

namespace Abi.HashCall

/-! ## The arguments -/

/-- The words for the kinds of the arguments, members of the operation one by one. -/
def kinds (c : HashCall) : Text :=
  let times : List Text := ["int", "int"]
  Text.within '(' ')' (Text.join "," (c.op.fields.map UserOperation.Field.kindWord ++ times))

def operation (c : HashCall) : Text :=
  Text.within '(' ')' (Text.join ", " (c.op.fields.map UserOperation.Field.display))

def verdict (fits : Bool) (type : Text) : Text :=
  if fits then " is valid." else " is not compatible with type `" ++ type ++ "`."

def argument (place : Nat) (value : Text) (fits : Bool) (type : Text) : Text :=
  "Argument " ++ Digits.decimal place ++ " value `" ++ value ++ "`" ++ verdict fits type ++ "\n"

/-! ## The report -/

/-- The report on a call that is not made. -/
def mismatch (c : HashCall) : Text :=
  "\nABI Not Found!\nFound 1 element(s) named `getHash` that accept 3 argument(s).\n"
    ++ "The provided arguments are not valid.\nProvided argument types: " ++ c.kinds
    ++ "\nProvided keyword argument types: \x7b\x7d\n\nTried to find a matching ABI element named "
    ++ "`getHash`, but encountered the following problems:\nSignature: " ++ hashSignature
    ++ ", type: function\n"
    ++ argument 1 c.operation (c.op.fields.all fitsField) operationType
    ++ argument 2 (Digits.signedDecimal c.validUntil) (fitsTime c.validUntil) timeType
    ++ argument 3 (Digits.signedDecimal c.validAfter) (fitsTime c.validAfter) timeType

end Abi.HashCall

end Paymaster

import Paymaster.Text.Basic

/-!
# Failures of the chain

What may go wrong when the node is asked or a hash is signed.
-/

namespace Paymaster

inductive NodeFault where
  | failed
  /-- The node did not answer in time. -/
  | timedOut
  deriving DecidableEq, Repr

/-- Why the chain client gave no answer. -/
inductive ChainFault where
  /-- The call of a function failed, or its answer is not of its type. -/
  | callFailed (function : Text)
  /-- The call of a function took longer than a number of seconds. -/
  | callTimedOut (function seconds : Text)
  | signingFailed
  deriving DecidableEq, Repr

def ChainFault.message : ChainFault → Text
  | .callFailed function => function ++ " failed"
  | .callTimedOut function seconds => function ++ " timed out after " ++ seconds ++ "s"
  | .signingFailed => "signing failed"

end Paymaster

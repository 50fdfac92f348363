import Paymaster.Problem

/-!
# Gas limits

The three limits that the paymaster commits itself to for every operation.
-/

namespace Paymaster

structure GasLimits where
  preVerification : Nat
  verification : Nat
  call : Nat
  deriving DecidableEq, Repr

namespace GasLimits

/-- The limits of numbers, none of which may be negative. -/
def ofInts (preVerification verification call : Int) : Except (List Problem) GasLimits :=
  let problems :=
    Problem.ofNegative "pre_verification_gas" preVerification
      ++ Problem.ofNegative "verification_gas_limit" verification
      ++ Problem.ofNegative "call_gas_limit" call
  if problems.isEmpty then .ok ⟨preVerification.toNat, verification.toNat, call.toNat⟩
  else .error problems

def total (l : GasLimits) : Nat :=
  l.preVerification + l.verification + l.call

end GasLimits

end Paymaster

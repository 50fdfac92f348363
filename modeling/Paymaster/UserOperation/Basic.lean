import Paymaster.Chain.Address
import Paymaster.GasLimits

/-!
# User operations

The operation that a sender wants sponsored. `UserOperation.fields` lists its members in
the order in which the contract hashes them.
-/

namespace Paymaster

structure UserOperation where
  sender : Address
  /-- The sender as it is kept in the operation. -/
  senderText : Text := sender.checksum
  nonce : Nat
  initCode : Bytes := []
  callData : Bytes
  callGasLimit : Nat := 0
  verificationGasLimit : Nat := 0
  preVerificationGas : Nat := 0
  maxFeePerGas : Nat
  maxPriorityFeePerGas : Nat
  paymasterAndData : Bytes := []
  signature : Bytes := []
  deriving DecidableEq, Repr

namespace UserOperation

def withGasLimits (op : UserOperation) (limits : GasLimits) : UserOperation :=
  { op with
    preVerificationGas := limits.preVerification
    verificationGasLimit := limits.verification
    callGasLimit := limits.call }

inductive Field where
  | address (a : Address)
  | quantity (n : Nat)
  | bytes (b : Bytes)
  deriving DecidableEq, Repr

/-- The members of an operation in the order of the contract. -/
def fields (op : UserOperation) : List Field :=
  [.address op.sender, .quantity op.nonce, .bytes op.initCode, .bytes op.callData,
   .quantity op.callGasLimit, .quantity op.verificationGasLimit,
   .quantity op.preVerificationGas, .quantity op.maxFeePerGas,
   .quantity op.maxPriorityFeePerGas, .bytes op.paymasterAndData, .bytes op.signature]

/-- The most that an operation with these limits can cost. -/
def cost (op : UserOperation) (limits : GasLimits) : Nat :=
  limits.total * op.maxFeePerGas

end UserOperation

end Paymaster

import Paymaster.Engine.Basic
import Paymaster.Rpc.Result
import Paymaster.UserOperation.Wire

/-!
# Sponsorships

The most that an operation can cost is taken from the allowance of its sender and saved
before anything is asked of the chain; an operation that is refused, or whose charge is
not saved, is not signed. Then the contract hashes the operation with the limits that were
charged and with data that carries zeros for the signature, the hash is signed, and the
caller gets the data with the signature and the limits.
-/

namespace Paymaster

/-- What the caller gets for a sponsored operation. -/
structure Sponsorship where
  paymasterAndData : Text
  preVerificationGas : Text
  verificationGasLimit : Text
  callGasLimit : Text
  deriving DecidableEq, Repr

namespace Sponsorship

/-- The record of a sponsorship. -/
def result (s : Sponsorship) : Result :=
  .record
    [⟨"paymaster_and_data", some "paymasterAndData", .ok (.text s.paymasterAndData)⟩,
     ⟨"pre_verification_gas", some "preVerificationGas", .ok (.text s.preVerificationGas)⟩,
     ⟨"verification_gas_limit", some "verificationGasLimit", .ok (.text s.verificationGasLimit)⟩,
     ⟨"call_gas_limit", some "callGasLimit", .ok (.text s.callGasLimit)⟩]

/-- The object under which a sponsorship is sent. -/
def toJson (s : Sponsorship) : Json :=
  .object
    [("paymasterAndData", .text s.paymasterAndData),
     ("preVerificationGas", .text s.preVerificationGas),
     ("verificationGasLimit", .text s.verificationGasLimit),
     ("callGasLimit", .text s.callGasLimit)]

@[simp] theorem encode_result (s : Sponsorship) : s.result.encode = .ok s.toJson := rfl

/-- The sponsorship with signed data and the limits that were charged. -/
def ofData (data : Bytes) (limits : GasLimits) : Sponsorship :=
  { paymasterAndData := Hex.ofBytes data
    preVerificationGas := ByteString.ofNat limits.preVerification
    verificationGasLimit := ByteString.ofNat limits.verification
    callGasLimit := ByteString.ofNat limits.call }

/-- The number that a limit denotes; a mark without digits is zero. -/
def limitValue (t : Text) : Int :=
  if 2 < t.length then ((Integer.read 16 t).toOption).getD 0 else 0

def gas (s : Sponsorship) : Int :=
  limitValue s.preVerificationGas + limitValue s.verificationGasLimit
    + limitValue s.callGasLimit

end Sponsorship

namespace Engine

/-- The account after a charge; none if the account is unknown, disabled or short of gas,
which the caller cannot tell apart. -/
def charged? (account? : Option Account) (cost : Nat) : Option Account :=
  match account? with
  | none => none
  | some account =>
    if account.enabled ∧ cost ≤ account.remainingGas then
      some
        { account with
          usedGas := account.usedGas + cost
          remainingGas := account.remainingGas - cost }
    else none

/-- Charges a lower-case address whose lock is held. -/
def charge (engine : Engine) (address : Text) (cost : Nat) : Action Unit := do
  let account? ← engine.findAccount address
  match charged? account? cost with
  | none => throw (.plain .insufficientGas)
  | some account =>
    let _ ← engine.saveAccount account

/-- The operation that the contract hashes: with the limits that were charged, data for a
time range that carries zeros for the signature, and no signature of its own. -/
def signingOperation (engine : Engine) (op : UserOperation) (range : TimeRange) :
    UserOperation :=
  { op.withGasLimits engine.limits with
    paymasterAndData := paymasterData engine.client.paymaster range .empty
    signature := [] }

/-- The time range of an authorization given at an instant. -/
def rangeAt (now : Instant) : Except Failure TimeRange :=
  let (validUntil, validAfter) := validityWindow now.unixSeconds
  match TimeRange.ofInts validUntil validAfter with
  | .ok range => .ok range
  | .error value => .error (.authorization (.timeOutOfRange value))

/-- Signs an operation that has been charged. -/
def authorize (engine : Engine) (op : UserOperation) : Action Sponsorship := do
  let now ← Action.request .clock
  let range ← Action.ofExcept (rangeAt now)
  let signature ← askChain do
    let hash ← engine.client.operationHash (engine.signingOperation op range)
      range.validUntil range.validAfter
    engine.client.signHash hash
  return .ofData (paymasterData engine.client.paymaster range signature) engine.limits

/-- The key under which the account of a sender is kept. -/
def senderKey (op : UserOperation) : Text :=
  op.senderText.lower

def sponsor (engine : Engine) (raw : Json) : Action Sponsorship := do
  let op ← Action.ofExcept ((UserOperation.read raw).mapError .rpc)
  let key := senderKey op
  Action.hold engine.locks key (engine.charge key (op.cost engine.limits))
  engine.authorize op

end Engine

end Paymaster

import Paymaster.Rpc.Error
import Paymaster.UserOperation.Basic
import Paymaster.UserOperation.Quantity

/-!
# User operations as they are sent

An operation is sent as an object. Every member has two names, of which the first one
decides if both are present; names that belong to no member are ignored. Every member
that is missing or does not fit is reported, in the order of the contract, under the
name that was used. Which letter case a sender may have is up to the library that recognizes
addresses.
-/

namespace Paymaster.UserOperation

/-- A member that is missing or does not fit. -/
structure Defect where
  /-- The name that was used, or the first name of a missing member. -/
  location : Text
  message : Text
  deriving DecidableEq, Repr

structure Names where
  first : Text
  second : Text
  deriving DecidableEq, Repr

/-- The value of a member with the name under which it was sent. -/
def Names.find? (names : Names) (members : Entries Text Json) : Option (Text × Json) :=
  match members.value? names.first with
  | some value => some (names.first, value)
  | none => (members.value? names.second).map (names.second, ·)

/-! ## Members -/

/-- A member that is read from its value, or its default if it is not sent. -/
def member {α : Type} (members : Entries Text Json) (names : Names) (default? : Option α)
    (read : Json → Except Text α) : Except Defect α :=
  match names.find? members with
  | some (location, value) =>
    (read value).mapError fun message => ⟨location, "Value error, " ++ message⟩
  | none =>
    match default? with
    | some value => .ok value
    | none => .error ⟨names.first, "Field required"⟩

/-- The sender, and its text in the case of its checksum. -/
def readSender (rule : Address.CaseRule) (j : Json) : Except Text (Address × Text) :=
  match j.asText?.bind (Address.recognize? rule) with
  | some a => .ok (a, a.checksum)
  | none => .error "sender must be a 20-byte hex address"

def readQuantity (j : Json) : Except Text Nat :=
  (Quantity.read j).mapError Quantity.Fault.message

def readBytes (j : Json) : Except Text Bytes :=
  (ByteString.read j).mapError ByteString.Fault.message

/-- The defect of a member that does not fit. -/
def defectOf {α : Type} : Except Defect α → List Defect
  | .ok _ => []
  | .error d => [d]

/-! ## Operations -/

/-- The operation that members denote, or all their defects. -/
def ofMembers (members : Entries Text Json) (rule : Address.CaseRule := .any) :
    Except (List Defect) UserOperation :=
  let sender := member members ⟨"sender", "sender"⟩ none (readSender rule)
  let nonce := member members ⟨"nonce", "nonce"⟩ none readQuantity
  let initCode := member members ⟨"initCode", "init_code"⟩ (some []) readBytes
  let callData := member members ⟨"callData", "call_data"⟩ none readBytes
  let callGas := member members ⟨"callGasLimit", "call_gas_limit"⟩ (some 0) readQuantity
  let verificationGas :=
    member members ⟨"verificationGasLimit", "verification_gas_limit"⟩ (some 0) readQuantity
  let preVerificationGas :=
    member members ⟨"preVerificationGas", "pre_verification_gas"⟩ (some 0) readQuantity
  let maxFee := member members ⟨"maxFeePerGas", "max_fee_per_gas"⟩ none readQuantity
  let maxPriorityFee :=
    member members ⟨"maxPriorityFeePerGas", "max_priority_fee_per_gas"⟩ none readQuantity
  let paymasterAndData :=
    member members ⟨"paymasterAndData", "paymaster_and_data"⟩ (some []) readBytes
  let signature := member members ⟨"signature", "signature"⟩ (some []) readBytes
  let defects :=
    defectOf sender ++ defectOf nonce ++ defectOf initCode ++ defectOf callData
      ++ defectOf callGas ++ defectOf verificationGas ++ defectOf preVerificationGas
      ++ defectOf maxFee ++ defectOf maxPriorityFee ++ defectOf paymasterAndData
      ++ defectOf signature
  let operation : Except Defect UserOperation := do
    let (sender, senderText) ← sender
    return {
      sender
      senderText
      nonce := ← nonce
      initCode := ← initCode
      callData := ← callData
      callGasLimit := ← callGas
      verificationGasLimit := ← verificationGas
      preVerificationGas := ← preVerificationGas
      maxFeePerGas := ← maxFee
      maxPriorityFeePerGas := ← maxPriorityFee
      paymasterAndData := ← paymasterAndData
      signature := ← signature }
  operation.mapError fun _ => defects

def defectsError (defects : List Defect) : RpcError :=
  .because .invalidParams
    ("Invalid user operation: "
      ++ Text.join "; " (defects.map fun d => d.location ++ ": " ++ d.message))

/-- The operation that a value denotes; a value that is no object has one defect without a
location. -/
def read (j : Json) (rule : Address.CaseRule := .any) : Except RpcError UserOperation :=
  match j with
  | .object members => (ofMembers members rule).mapError defectsError
  | _ =>
    .error (defectsError
      [⟨[], "Input should be a valid dictionary or instance of UserOperation"⟩])

end Paymaster.UserOperation

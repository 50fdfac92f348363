import Paymaster.Chain.Abi

/-!
# Authorizations

What the contract reads from the data that a sponsored operation carries: the address of
the paymaster in 20 bytes, the end and the start of the validity as two words, and a
signature of 65 bytes. The hash that is signed is taken over an operation whose data
carries zeros in the place of the signature.
-/

namespace Paymaster

/-! ## Time ranges -/

/-- The seconds between which an authorization is valid. -/
structure TimeRange where
  validUntil : Nat
  validAfter : Nat
  until_lt : validUntil < Abi.timeBound
  after_lt : validAfter < Abi.timeBound
  deriving DecidableEq

/-- How long an authorization is valid, in seconds. -/
def validitySeconds : Int := 86400

/-- The end and the start of an authorization given at a time. -/
def validityWindow (now : Int) : Int × Int :=
  (now + validitySeconds, now)

namespace TimeRange

/-- The range between two numbers, or the first of them that does not have 48 bits. -/
def ofInts (validUntil validAfter : Int) : Except Int TimeRange :=
  if u : 0 ≤ validUntil ∧ validUntil < Abi.timeBound then
    if a : 0 ≤ validAfter ∧ validAfter < Abi.timeBound then
      .ok ⟨validUntil.toNat, validAfter.toNat, by omega, by omega⟩
    else .error validAfter
  else .error validUntil

def encode (r : TimeRange) : Bytes :=
  Bytes.word r.validUntil ++ Bytes.word r.validAfter

/-- A number as it is quoted: of a long one only the first 76 digits. -/
def quotedNumber (n : Int) : Text :=
  let t := Digits.signedDecimal n
  if 79 < t.length then t.take 76 ++ "..." else t

/-- The wording for a number that does not have 48 bits. -/
def rangeMessage (n : Int) : Text :=
  "Value \x60" ++ quotedNumber n
    ++ "\x60 of type <class 'int'> cannot be encoded by UnsignedIntegerEncoder: "
    ++ "Cannot be encoded in 48 bits. Must be bounded between [0, 281474976710655]."

end TimeRange

/-! ## Signatures -/

/-- A signature: 32 bytes `r`, 32 bytes `s` and the recovery byte. -/
structure Signature where
  bytes : Bytes
  size : bytes.length = 65
  deriving DecidableEq

namespace Signature

/-- The zeros that stand in the place of a signature. -/
def empty : Signature := ⟨Bytes.zeros 65, Bytes.length_zeros 65⟩

/-- The signature of bytes, if there are 65. -/
def ofBytes? (b : Bytes) : Option Signature :=
  if h : b.length = 65 then some ⟨b, h⟩ else none

end Signature

/-! ## Layout -/

def paymasterData (paymaster : Address) (range : TimeRange) (signature : Signature) : Bytes :=
  paymaster.bytes ++ range.encode ++ signature.bytes

theorem length_paymasterData (paymaster : Address) (range : TimeRange)
    (signature : Signature) :
    (paymasterData paymaster range signature).length = 149 := by
  simp [paymasterData, TimeRange.encode, paymaster.size, signature.size]

inductive Authorization.Fault where
  /-- The signature does not have 65 bytes. -/
  | signatureLength (length : Nat)
  | address (fault : Address.Fault)
  /-- A time does not have 48 bits. -/
  | timeOutOfRange (value : Int)
  deriving DecidableEq, Repr

namespace Authorization

/-- The data of an operation from outside values: the length of the signature is checked
first, then the address, then the times. -/
def layOut (paymaster : Text) (validUntil validAfter : Int) (signature : Bytes) :
    Except Fault Bytes :=
  match Signature.ofBytes? signature with
  | none => .error (.signatureLength signature.length)
  | some signature =>
    match Address.read paymaster with
    | .error fault => .error (.address fault)
    | .ok paymaster =>
      match TimeRange.ofInts validUntil validAfter with
      | .error value => .error (.timeOutOfRange value)
      | .ok range => .ok (paymasterData paymaster range signature)

def Fault.message : Fault → Text
  | .signatureLength length => "signature must be 65 bytes, got " ++ Digits.decimal length
  | .address fault => fault.message
  | .timeOutOfRange value => TimeRange.rangeMessage value

end Authorization

end Paymaster

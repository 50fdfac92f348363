import Paymaster.Authorization
import Paymaster.Bytes.Hex
import Paymaster.Crypto.Keccak
import Paymaster.Crypto.Secp256k1

/-!
# The signing key

A key is a number between zero and the order of the curve, written in 32 bytes. What it
signs is the digest of a message behind a fixed mark and the length of the message, so
that no signature is valid for anything else on the chain.
-/

namespace Paymaster

structure Signer where
  secret : Nat
  secret_pos : 0 < secret
  secret_lt : secret < Secp256k1.order

namespace Signer

/-! ## Reading -/

/-- Why a text is not read as a key. -/
inductive Fault where
  | digits (fault : Hex.Fault)
  /-- The text does not have 32 bytes, or they are no key. -/
  | length (bytes : Nat)
  deriving DecidableEq, Repr

def Fault.message : Fault → Text
  | .digits fault => fault.message
  | .length bytes =>
    "The private key must be exactly 32 bytes long, instead of " ++ Digits.decimal bytes
      ++ " bytes."

def read (t : Text) : Except Fault Signer :=
  match Hex.read (Hex.dropMark t) with
  | .error fault => .error (.digits fault)
  | .ok b =>
    if h : b.length = 32 ∧ 0 < b.toNat ∧ b.toNat < Secp256k1.order then
      .ok ⟨b.toNat, h.2.1, h.2.2⟩
    else .error (.length b.length)

/-! ## Signing -/

/-- The address of a key: the end of the digest of its point. -/
def address (signer : Signer) : Address :=
  let point := Secp256k1.multiple signer.secret
  ⟨(Keccak.hash (Bytes.word point.1 ++ Bytes.word point.2)).drop 12, by
    rw [List.length_drop, Keccak.length_hash]⟩

/-- The digest that is signed for a message. -/
def messageDigest (message : Bytes) : Bytes :=
  Keccak.hash (25 :: Bytes.ofAscii "Ethereum Signed Message:\n"
    ++ Bytes.ofAscii (Digits.decimal message.length) ++ message)

/-- The parts of a signature in its layout. -/
def layOut (parts : Secp256k1.Parts) : Signature :=
  ⟨Bytes.word parts.r ++ Bytes.word parts.s ++ [if parts.odd then 28 else 27], by simp⟩

def sign (signer : Signer) (message : Bytes) : Signature :=
  layOut (Secp256k1.sign signer.secret (messageDigest message))

end Signer

end Paymaster

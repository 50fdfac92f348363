import Paymaster.Chain.Address
import Paymaster.UserOperation.Basic

/-!
# Call data of contracts

Arguments are laid out in words. A number stands in its place; bytes and tuples stand
behind the words, and their place holds the distance to them. A call begins with the
first four bytes of the digest of the function's signature.
-/

namespace Paymaster

/-- An argument as it is laid out. -/
inductive Abi.Part where
  /-- A number that stands in its place. -/
  | word (n : Nat)
  | behind (b : Bytes)
  deriving DecidableEq, Repr

namespace Abi

/-! ## Layout -/

/-- Bytes filled up with zeros to whole words. -/
def wholeWords (b : Bytes) : Bytes :=
  b ++ Bytes.zeros ((32 - b.length % 32) % 32)

/-- The words of parts, the first of the bytes behind them at a distance. -/
def heads (distance : Nat) : List Part → Bytes
  | [] => []
  | .word n :: rest => Bytes.word n ++ heads distance rest
  | .behind b :: rest => Bytes.word distance ++ heads (distance + b.length) rest

def tails : List Part → Bytes
  | [] => []
  | .word _ :: rest => tails rest
  | .behind b :: rest => b ++ tails rest

def join (parts : List Part) : Bytes :=
  heads (32 * parts.length) parts ++ tails parts

/-- A byte string as an argument: its length, then its bytes in whole words. -/
def bytes (b : Bytes) : Part :=
  .behind (Bytes.word b.length ++ wholeWords b)

def tuple (members : List Part) : Part :=
  .behind (join members)

/-- The first four bytes of the digest of a signature. -/
def selector (signature : Text) : Bytes :=
  (Keccak.hash (Bytes.ofAscii signature)).take 4

def call (signature : Text) (arguments : List Part) : Bytes :=
  selector signature ++ join arguments

/-! ## User operations -/

def wordBound : Nat := Nat.pow 2 256

/-- The number below which times lie: they have 48 bits. -/
def timeBound : Nat := Nat.pow 2 48

/-- A member of an operation as an argument. -/
def ofField : UserOperation.Field → Part
  | .address a => .word a.bytes.toNat
  | .quantity n => .word n
  | .bytes b => bytes b

/-- Members that fit their place in a call. -/
def fitsField : UserOperation.Field → Bool
  | .quantity n => n < wordBound
  | _ => true

/-- Times that fit their place in a call. -/
def fitsTime (t : Int) : Bool :=
  0 ≤ t ∧ t < timeBound

def operationType : Text :=
  "(address,uint256,bytes,bytes,uint256,uint256,uint256,uint256,uint256,bytes,bytes)"

def timeType : Text :=
  "uint48"

/-- The signature of the function that hashes an operation. -/
def hashSignature : Text :=
  "getHash(" ++ operationType ++ "," ++ timeType ++ "," ++ timeType ++ ")"

/-- The signature of the function that lists the tokens of an owner. -/
def tokenSignature : Text :=
  "tokenOfOwnerByIndex(address,uint256)"

/-- A call that hashes an operation for a time range. -/
structure HashCall where
  op : UserOperation
  validUntil : Int
  validAfter : Int
  deriving DecidableEq, Repr

/-- The data of a call that hashes an operation, if every number fits its place. -/
def HashCall.data? (c : HashCall) : Option Bytes :=
  if c.op.fields.all fitsField ∧ fitsTime c.validUntil ∧ fitsTime c.validAfter then
    some (call hashSignature
      [tuple (c.op.fields.map ofField), .word c.validUntil.toNat, .word c.validAfter.toNat])
  else none

/-- The call that asks for the first token of an owner. -/
def firstTokenCall (owner : Address) : Bytes :=
  call tokenSignature [.word owner.bytes.toNat, .word 0]

end Abi

end Paymaster

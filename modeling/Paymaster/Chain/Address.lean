import Paymaster.Bytes.Hex
import Paymaster.Crypto.Keccak
import Paymaster.Text.LowerCase
import Paymaster.Text.Quoted

/-!
# Addresses

An address is 20 bytes. It is spelled by forty hexadecimal digits of either case, with or
without `0x` in front. Its checksummed form writes a letter in upper case where the digest of
the lower-case digits has a nibble of eight or more.

A text is recognized as an address if it spells one and its letter case is allowed. What is
allowed is up to the library that recognizes addresses (`Address.CaseRule`): there are libraries
that look at the digits only, and libraries that hold letters of both cases against the checksum.
The engine is run with a library of the first kind.
-/

namespace Paymaster

structure Address where
  bytes : Bytes
  size : bytes.length = 20
  deriving DecidableEq, Repr

namespace Address

/-! ## Reading -/

/-- Why a text is not read as an address. -/
inductive Fault where
  | notHex (source : Text)
  /-- The text is hexadecimal, but does not have forty digits. -/
  | unknownFormat (source : Text)
  deriving DecidableEq, Repr

def Fault.message : Fault → Text
  | .notHex source => "when sending a str, it must be a hex string. Got: " ++ source.quoted
  | .unknownFormat source =>
    "Unknown format " ++ source.quoted ++ ", attempted to normalize to "
      ++ Text.quoted ('0' :: 'x' :: (Hex.dropMark source).map CodePoint.asciiLower)

/-- The address that forty digits with or without a mark spell, in whatever letter case. -/
def ofText? (t : Text) : Option Address :=
  match Hex.pairs? (Hex.dropMark t) with
  | some b => if h : b.length = 20 then some ⟨b, h⟩ else none
  | none => none

/-- The address that a text denotes, or what is wrong with the text. -/
def read (t : Text) : Except Fault Address :=
  match ofText? t with
  | some a => .ok a
  | none =>
    if (Hex.dropMark t).all CodePoint.isHexDigit then .error (.unknownFormat t)
    else .error (.notHex t)

/-! ## Writing -/

/-- The lower-case digits of an address behind `0x`. -/
def lower (a : Address) : Text :=
  Hex.ofBytes a.bytes

/-- A digit in the case that a nibble of the digest asks for. -/
def checksumDigit (digit nibble : CodePoint) : CodePoint :=
  if 97 ≤ digit.val ∧ 8 ≤ nibble.hexValue?.getD 0 then CodePoint.ofNat (digit.val - 32) else digit

def checksum (a : Address) : Text :=
  let digits := Hex.digits a.bytes
  let nibbles := Hex.digits (Keccak.hash (Bytes.ofAscii digits))
  '0' :: 'x' :: List.zipWith checksumDigit digits nibbles

/-! ## Recognizing -/

/-- What the library that recognizes addresses asks of letter case. The library is no part of the
program: what is proved of a reader holds under either rule, and a reader that is given no rule is
under the first. -/
inductive CaseRule where
  /-- Nothing. -/
  | any
  /-- Letters of both cases must be those of the checksum. -/
  | checksummed
  deriving DecidableEq, Repr

/-- Letters of both cases stand among the digits of a text. -/
def isMixed (t : Text) : Bool :=
  let digits := Hex.dropMark t
  digits.any (fun c => 65 ≤ c.val && c.val ≤ 90) && digits.any fun c => 97 ≤ c.val && c.val ≤ 122

/-- Whether a spelling of an address has an allowed letter case. -/
def CaseRule.allows (rule : CaseRule) (a : Address) (t : Text) : Bool :=
  match rule with
  | .any => true
  | .checksummed => !isMixed t || t == a.checksum

/-- The address as which a text is recognized. -/
def recognize? (rule : CaseRule) (t : Text) : Option Address :=
  (ofText? t).filter fun a => rule.allows a t

theorem recognize?_eq_some_iff {rule : CaseRule} {t : Text} {a : Address} :
    recognize? rule t = some a ↔ ofText? t = some a ∧ rule.allows a t = true :=
  Option.filter_eq_some_iff

@[simp] theorem recognize?_any (t : Text) : recognize? .any t = ofText? t := by
  unfold recognize? CaseRule.allows
  cases ofText? t <;> rfl

/-- The address of which all bytes are zero. -/
def zero : Address := ⟨Bytes.zeros 20, Bytes.length_zeros 20⟩

end Address

end Paymaster

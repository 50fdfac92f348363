import Paymaster.Bytes.Basic
import Paymaster.Json.Reader

/-!
# Encodings of a JSON body

A body is decoded from UTF-8, UTF-16 or UTF-32. A byte order mark decides the
encoding; without one the places of zero bytes in front do, since a JSON text starts
with ASCII. Encoded surrogates are let through in all three.
-/

namespace Paymaster.Json

/-! ## Units -/

/-- The order of the bytes of a unit. -/
inductive ByteOrder where
  | big
  | little
  deriving DecidableEq, Repr

/-- The number of a unit of bytes. -/
def ByteOrder.unit (order : ByteOrder) (b : Bytes) : Nat :=
  match order with
  | .big => b.toNat
  | .little => Bytes.toNat b.reverse

/-- The continuation byte of UTF-8, without its mark. -/
def continuation? (b : UInt8) : Option Nat :=
  if 0x80 ≤ b.toNat ∧ b.toNat < 0xC0 then some (b.toNat - 0x80) else none

/-- The text of UTF-8 bytes: every code point in its shortest form. -/
def utf8? : Bytes → Option Text
  | [] => some []
  | a :: rest =>
    let n := a.toNat
    if n < 0x80 then (utf8? rest).map (CodePoint.ofNat n :: ·)
    else if 0xC2 ≤ n ∧ n < 0xE0 then
      match rest with
      | b :: rest => do
        let x ← continuation? b
        return CodePoint.ofNat ((n - 0xC0) * 64 + x) :: (← utf8? rest)
      | _ => none
    else if 0xE0 ≤ n ∧ n < 0xF0 then
      match rest with
      | b :: c :: rest => do
        let x ← continuation? b
        let y ← continuation? c
        let point := (n - 0xE0) * 4096 + x * 64 + y
        if point < 0x800 then none
        else return CodePoint.ofNat point :: (← utf8? rest)
      | _ => none
    else if 0xF0 ≤ n ∧ n < 0xF5 then
      match rest with
      | b :: c :: d :: rest => do
        let x ← continuation? b
        let y ← continuation? c
        let z ← continuation? d
        let point := (n - 0xF0) * 262144 + x * 4096 + y * 64 + z
        if point < 0x10000 ∨ 0x110000 ≤ point then none
        else return CodePoint.ofNat point :: (← utf8? rest)
      | _ => none
    else none

def units16? (order : ByteOrder) : Bytes → Option (List Nat)
  | [] => some []
  | [_] => none
  | a :: b :: rest => (units16? order rest).map (order.unit [a, b] :: ·)

def utf16? (order : ByteOrder) (b : Bytes) : Option Text :=
  (units16? order b).map fun units => Piece.join (units.map .unit)

def utf32? (order : ByteOrder) : Bytes → Option Text
  | [] => some []
  | a :: b :: c :: d :: rest =>
    let n := order.unit [a, b, c, d]
    if h : n < 0x110000 then (utf32? order rest).map (⟨n, h⟩ :: ·) else none
  | _ => none

/-! ## Bodies -/

/-- The text of a body without a byte order mark. -/
def decodeUnmarked? (b : Bytes) : Option Text :=
  match b with
  | 0 :: 0 :: _ :: _ :: _ => utf32? .big b
  | 0 :: _ :: _ :: _ :: _ => utf16? .big b
  | _ :: 0 :: 0 :: 0 :: _ => utf32? .little b
  | _ :: 0 :: _ :: _ :: _ => utf16? .little b
  | [0, _] => utf16? .big b
  | [_, 0] => utf16? .little b
  | _ => utf8? b

def decode? (b : Bytes) : Option Text :=
  match b with
  | 0 :: 0 :: 0xFE :: 0xFF :: rest => utf32? .big rest
  | 0xFF :: 0xFE :: 0 :: 0 :: rest => utf32? .little rest
  | 0xFE :: 0xFF :: rest => utf16? .big rest
  | 0xFF :: 0xFE :: rest => utf16? .little rest
  | 0xEF :: 0xBB :: 0xBF :: rest => utf8? rest
  | b => decodeUnmarked? b

def ofBytes (b : Bytes) : Except Fault Json :=
  match decode? b with
  | some t => read t
  | none => .error .malformed

end Paymaster.Json

import Paymaster.Number.Digits

/-!
# Bytes

Sequences of bytes, the numbers they denote in big-endian order, and words: numbers
written in exactly 32 bytes.
-/

namespace Paymaster

/-- A sequence of bytes. -/
abbrev Bytes : Type := List UInt8

namespace Bytes

def ofAscii (t : Text) : Bytes :=
  t.map fun c => UInt8.ofNat c.val

/-- The number that bytes denote, most significant first. -/
def toNat (b : Bytes) : Nat :=
  b.foldl (fun n x => n * 256 + x.toNat) 0

/-- The last `width` bytes of a number, most significant first. -/
def ofNat : (width : Nat) → Nat → Bytes
  | 0, _ => []
  | width + 1, n => ofNat width (n / 256) ++ [UInt8.ofNat n]

/-- How many bytes a number needs; zero needs none. -/
def width (n : Nat) : Nat :=
  if n = 0 then 0 else n.log2 / 8 + 1

/-- A number in as few bytes as possible. -/
def minimal (n : Nat) : Bytes :=
  ofNat (width n) n

def word (n : Nat) : Bytes :=
  ofNat 32 n

def zeros (n : Nat) : Bytes :=
  List.replicate n 0

@[simp] theorem length_ofNat (width n : Nat) : (ofNat width n).length = width := by
  induction width generalizing n with
  | zero => rfl
  | succ w ih => simp [ofNat, ih]

@[simp] theorem length_word (n : Nat) : (word n).length = 32 :=
  length_ofNat 32 n

@[simp] theorem length_zeros (n : Nat) : (zeros n).length = n := by
  simp [zeros]

end Bytes

end Paymaster

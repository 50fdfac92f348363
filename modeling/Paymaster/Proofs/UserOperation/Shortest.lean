import Mathlib.Algebra.Group.Nat.Even
import Paymaster.Proofs.UserOperation.Defects
import Paymaster.Proofs.UserOperation.RoundTrip

/-!
# Shortest byte strings

A limit is written as the mark and pairs of lower-case digits, the first of which is not `00`
(`Hex.Shortest`). The texts of this form are exactly the byte strings of numbers
(`ByteString.shortest_iff`), and the byte string of a number is read back by all readers: as a
limit, as a quantity and as bytes (`ByteString.inverted_ofNat`). So each number has one of them.
-/

namespace Paymaster

/-! ## Digits -/

theorem CodePoint.ofDigit_eq_zero_iff {d : Nat} (small : d < 16) : ofDigit d = '0' ↔ d = 0 := by
  have table : ∀ d : Fin 16, ofDigit d.val = '0' ↔ d.val = 0 := by decide
  exact table ⟨d, small⟩

namespace Hex

/-- The digits in lower case. -/
def alphabet : Text := "0123456789abcdef"

/-- Pairs of lower-case digits, the first of which is not `00`. -/
structure Shortest (digits : Text) : Prop where
  even : Even digits.length
  lower : ∀ c ∈ digits, c ∈ alphabet
  leading : digits.take 2 ≠ ("00" : Text)

theorem digits_eq_nil_iff {b : Bytes} : digits b = [] ↔ b = [] := by
  rw [← List.length_eq_zero_iff, ← List.length_eq_zero_iff, length_digits]
  omega

theorem mem_alphabet_iff {c : CodePoint} :
    c ∈ alphabet ↔ ∃ d, d < 16 ∧ CodePoint.ofDigit d = c := by
  have table : alphabet = (List.range 16).map CodePoint.ofDigit := by decide
  rw [table, List.mem_map]
  simp only [List.mem_range]

theorem mem_alphabet_of_mem_digits {b : Bytes} {c : CodePoint} (member : c ∈ digits b) :
    c ∈ alphabet := by
  rw [digits_eq] at member
  obtain ⟨d, digit, rfl⟩ := List.mem_map.mp member
  exact mem_alphabet_iff.mpr ⟨d, lt_of_mem_nibbles digit, rfl⟩

/-- Digits start with `00` exactly if their bytes start with zero. -/
theorem take_digits_eq_iff {b : Bytes} : (digits b).take 2 = ("00" : Text) ↔ b.head? = some 0 := by
  have zeros : ("00" : Text) = [CodePoint.ofChar '0', CodePoint.ofChar '0'] := rfl
  cases b with
  | nil => exact iff_of_false (List.cons_ne_nil _ _).symm (Option.some_ne_none _).symm
  | cons x rest =>
    obtain ⟨high, low⟩ := lt_of_byte x
    rw [digits_cons, zeros, List.take_succ_cons, List.take_succ_cons, List.take_zero,
      List.cons.injEq, List.cons.injEq, CodePoint.ofDigit_eq_zero_iff high,
      CodePoint.ofDigit_eq_zero_iff low, and_iff_left rfl, List.head?_cons, Option.some_inj,
      ← UInt8.toNat_inj, UInt8.toNat_zero]
    omega

theorem shortest_digits_iff {b : Bytes} : Shortest (digits b) ↔ b.head? ≠ some 0 := by
  constructor
  · intro shortest zero
    exact shortest.leading (take_digits_eq_iff.mpr zero)
  · intro leading
    refine ⟨?_, fun c => mem_alphabet_of_mem_digits, fun zeros => ?_⟩
    · rw [length_digits]
      exact even_two_mul _
    · exact leading (take_digits_eq_iff.mp zeros)

/-- Pairs of lower-case digits are the digits of some bytes. -/
theorem Shortest.exists_digits {t : Text} (shortest : Shortest t) : ∃ b, digits b = t := by
  have plain {c : CodePoint} (member : c ∈ t) : c.isHexDigit = true ∧ c.asciiLower = c := by
    obtain ⟨d, small, rfl⟩ := mem_alphabet_iff.mp (shortest.lower c member)
    have value := CodePoint.hexValue?_ofDigit small
    rw [CodePoint.isHexDigit, value]
    exact ⟨rfl, (CodePoint.asciiLower_of_hexValue? value).2⟩
  obtain ⟨b, read⟩ := exists_pairs?_iff.mpr
    ⟨Nat.even_iff.mp shortest.even, fun c member => (plain member).1⟩
  have same : t.map CodePoint.asciiLower = t :=
    (List.map_congr_left fun c member => (plain member).2).trans (List.map_id t)
  rw [map_asciiLower_of_pairs? read] at same
  exact ⟨b, same⟩

end Hex

/-! ## Numbers -/

namespace ByteString

theorem shortest_minimal (n : Nat) : Hex.Shortest (Hex.digits (Bytes.minimal n)) := by
  rw [Hex.shortest_digits_iff, ← Bytes.minimal_toNat_iff, Bytes.toNat_minimal]

/-- The texts of the shortest form are the byte strings of numbers. -/
theorem shortest_iff {digits : Text} :
    Hex.Shortest digits ↔ ∃ n, ofNat n = ('0' :: 'x' :: digits : Text) := by
  constructor
  · intro shortest
    obtain ⟨b, rfl⟩ := shortest.exists_digits
    have same := Bytes.minimal_toNat_iff.mpr (Hex.shortest_digits_iff.mp shortest)
    refine ⟨b.toNat, ?_⟩
    rw [ofNat, same]
    rfl
  · rintro ⟨n, same⟩
    obtain ⟨-, behind⟩ := List.cons.inj same
    obtain ⟨-, rfl⟩ := List.cons.inj behind
    exact shortest_minimal n

/-- An odd number of digits has a zero in front. -/
example : ofNat 100000 = ("0x0186a0" : Text) := by decide

/-- What is read of a text in which a number is written, wherever it is read. -/
structure Inverted (t : Text) (n : Nat) : Prop where
  form : ∃ digits : Text, t = ('0' :: 'x' :: digits : Text) ∧ Hex.Shortest digits ∧
    (digits = [] ↔ n = 0)
  counted : Sponsorship.limitValue t = n
  /-- Where digits are counted, they are an integer in base 16. -/
  converted : 2 < t.length → Integer.read 16 t = .ok n
  quantity : Quantity.read (.text t) = if n < 2 ^ 256 then .ok n else .error .outOfRange
  bytes : ∃ b, read (.text t) = .ok b ∧
    ∀ other : Bytes, other.toNat = n ↔ ∃ k, other = Bytes.zeros k ++ b

theorem read_quantity_ofNat (n : Nat) :
    Quantity.read (.text (ofNat n)) = if n < 2 ^ 256 then .ok n else .error .outOfRange := by
  have bound : Quantity.bound = 2 ^ 256 := rfl
  rw [Quantity.read, Quantity.integerOf, Quantity.ofText_ofNat, bound]
  by_cases small : n < 2 ^ 256
  · have inside : ¬((n : Int) < 0 ∨ ((2 ^ 256 : Nat) : Int) ≤ n) := by omega
    simp only [if_neg inside, if_pos small, Int.toNat_natCast]
  · have outside : (n : Int) < 0 ∨ ((2 ^ 256 : Nat) : Int) ≤ n := by omega
    simp only [if_pos outside, if_neg small]

theorem read_ofNat (n : Nat) : read (.text (ofNat n)) = .ok (Bytes.minimal n) :=
  UserOperation.mapError_eq_ok_iff.mp
    (readBytes_of_spells ⟨_, Hex.map_asciiLower_ofBytes _, Text.padded_self _⟩)

/-- All readers invert the byte string of a number. -/
theorem inverted_ofNat (n : Nat) : Inverted (ofNat n) n where
  form := by
    refine ⟨_, rfl, shortest_minimal n, ?_⟩
    rw [Hex.digits_eq_nil_iff, Bytes.minimal_eq_nil]
  counted := Sponsorship.limitValue_ofNat n
  converted := by
    intro long
    have filled : Bytes.minimal n ≠ [] := by
      intro empty
      rw [ofNat, empty] at long
      exact absurd long (by decide)
    rw [ofNat, Integer.read_ofBytes filled, Bytes.toNat_minimal]
  quantity := read_quantity_ofNat n
  bytes := ⟨_, read_ofNat n, fun _ => Bytes.toNat_eq_iff⟩

theorem ofNat_injective : Function.Injective ofNat := by
  intro n k same
  have counted := (inverted_ofNat n).counted
  rw [same, (inverted_ofNat k).counted] at counted
  exact (Int.ofNat.inj counted).symm

end ByteString

end Paymaster

import Mathlib.Data.List.Induction
import Paymaster.Engine.Sponsor
import Paymaster.Proofs.Number.Written
import Paymaster.Proofs.Text.Blanks

/-!
# Numbers as hexadecimal byte strings

A number denotes what its bytes denote (`Bytes.toNat_minimal`), and its bytes what their
hexadecimal digits denote (`Hex.value_nibbles`). All other bytes for the number have zeros in
front of these (`Bytes.toNat_eq_iff`). So a number that is written as a byte string is read back,
as a quantity of an operation (`Quantity.ofText_ofNat`) and as a limit
(`Sponsorship.limitValue_ofNat`). Zero is written as the mark alone.
-/

namespace Paymaster

/-! ## Bytes -/

namespace Bytes

theorem toNat_append_singleton (b : Bytes) (x : UInt8) :
    toNat (b ++ [x]) = toNat b * 256 + x.toNat := by
  simp [toNat]

theorem toNat_ofNat (width : Nat) : ∀ n, n < 256 ^ width → toNat (ofNat width n) = n := by
  induction width with
  | zero =>
    intro n bound
    have zero : n = 0 := by simpa using bound
    rw [zero]
    rfl
  | succ width ih =>
    intro n bound
    have smaller : n / 256 < 256 ^ width := by
      apply Nat.div_lt_of_lt_mul
      rwa [Nat.mul_comm, ← Nat.pow_succ]
    have last : (UInt8.ofNat n).toNat = n % 256 := by simp
    rw [ofNat, toNat_append_singleton, ih _ smaller, last]
    omega

theorem lt_pow_width (n : Nat) : n < 256 ^ width n := by
  unfold width
  split
  · simp [*]
  · have bits : n < 2 ^ (n.log2 + 1) := Nat.lt_log2_self
    have room : n.log2 + 1 ≤ 8 * (n.log2 / 8 + 1) := by omega
    calc n < 2 ^ (n.log2 + 1) := bits
      _ ≤ 2 ^ (8 * (n.log2 / 8 + 1)) := Nat.pow_le_pow_right (by omega) room
      _ = 256 ^ (n.log2 / 8 + 1) := by rw [Nat.pow_mul]

theorem toNat_minimal (n : Nat) : (minimal n).toNat = n :=
  toNat_ofNat _ n (lt_pow_width n)

@[simp] theorem length_minimal (n : Nat) : (minimal n).length = width n :=
  length_ofNat _ n

theorem toNat_lt (b : Bytes) : b.toNat < 256 ^ b.length := by
  induction b using List.reverseRecOn with
  | nil => exact Nat.one_pos
  | append_singleton b x ih =>
    have last := x.toNat_lt
    rw [toNat_append_singleton, List.length_append, List.length_singleton, Nat.pow_succ]
    omega

/-- Bytes are told by their number and by how many they are. -/
theorem ofNat_toNat (b : Bytes) : ofNat b.length b.toNat = b := by
  induction b using List.reverseRecOn with
  | nil => rfl
  | append_singleton b x ih =>
    have last := x.toNat_lt
    have front : (toNat b * 256 + x.toNat) / 256 = toNat b := by omega
    have final : UInt8.ofNat (toNat b * 256 + x.toNat) = x := by
      apply UInt8.toNat_inj.mp
      rw [UInt8.toNat_ofNat']
      omega
    rw [List.length_append, List.length_singleton, ofNat, toNat_append_singleton, front, ih, final]

/-- A number needs no more bytes than there are places for it. -/
theorem width_le_iff {n k : Nat} : width n ≤ k ↔ n < 256 ^ k := by
  constructor
  · intro room
    exact Nat.lt_of_lt_of_le (lt_pow_width n) (Nat.pow_le_pow_right (by omega) room)
  · intro small
    unfold width
    split
    · exact Nat.zero_le k
    · rename_i nonzero
      have bits : n < 2 ^ (8 * k) := by rwa [Nat.pow_mul]
      have places : n.log2 < 8 * k := (Nat.log2_lt nonzero).mpr bits
      omega

theorem toNat_zeros_append (k : Nat) (b : Bytes) : (zeros k ++ b).toNat = b.toNat := by
  induction k with
  | zero => rfl
  | succ k ih =>
    rw [← ih]
    rfl

/-- The bytes that denote a number are its minimal ones behind zeros. -/
theorem toNat_eq_iff {n : Nat} {b : Bytes} : b.toNat = n ↔ ∃ k, b = zeros k ++ minimal n := by
  constructor
  · rintro rfl
    have room : width b.toNat ≤ b.length := width_le_iff.mpr b.toNat_lt
    have length : (zeros (b.length - width b.toNat) ++ minimal b.toNat).length = b.length := by
      rw [List.length_append, length_zeros, length_minimal]
      omega
    -- Both sides have the same number and the same length.
    have same := ofNat_toNat (zeros (b.length - width b.toNat) ++ minimal b.toNat)
    rw [length, toNat_zeros_append, toNat_minimal, ofNat_toNat] at same
    exact ⟨_, same⟩
  · rintro ⟨k, rfl⟩
    rw [toNat_zeros_append, toNat_minimal]

/-- The minimal bytes of numbers are those that do not start with zero. -/
theorem minimal_toNat_iff {b : Bytes} : minimal b.toNat = b ↔ b.head? ≠ some 0 := by
  obtain ⟨k, behind⟩ := toNat_eq_iff.mp (Eq.refl b.toNat)
  constructor
  · intro same zero
    cases b with
    | nil => cases zero
    | cons x rest =>
      cases zero
      -- The rest denotes the same number in fewer bytes.
      have room := width_le_iff.mpr (toNat_lt rest)
      have length : width (toNat rest) = rest.length + 1 := by
        rw [← length_minimal]
        exact congrArg List.length same
      omega
  · intro leading
    cases k with
    | zero => exact behind.symm
    | succ k =>
      rw [behind] at leading
      exact absurd rfl leading

end Bytes

/-! ## Digits -/

namespace Hex

/-- The values of the digits of bytes. -/
def nibbles (b : Bytes) : List Nat :=
  b.flatMap fun x => [x.toNat / 16, x.toNat % 16]

theorem digits_eq (b : Bytes) : digits b = (nibbles b).map CodePoint.ofDigit := by
  rw [digits, nibbles, List.map_flatMap]
  rfl

theorem lt_of_mem_nibbles {b : Bytes} {d : Nat} (member : d ∈ nibbles b) : d < 16 := by
  obtain ⟨x, -, member⟩ := List.mem_flatMap.mp member
  have bound := x.toNat_lt
  rcases List.mem_cons.mp member with rfl | member
  · omega
  · rcases List.mem_cons.mp member with rfl | member
    · omega
    · cases member

theorem value_nibbles (b : Bytes) : Digits.value 16 (nibbles b) = b.toNat := by
  have continued : ∀ n, (nibbles b).foldl (fun n d => n * 16 + d) n
      = b.foldl (fun n x => n * 256 + x.toNat) n := by
    induction b with
    | nil => exact fun n => rfl
    | cons x rest ih =>
      intro n
      have pair : (n * 16 + x.toNat / 16) * 16 + x.toNat % 16 = n * 256 + x.toNat := by omega
      rw [nibbles, List.flatMap_cons, List.foldl_append, List.foldl_cons, List.foldl_cons,
        List.foldl_cons, List.foldl_nil, pair]
      exact ih _
  exact continued 0

theorem nibbles_ne_nil {b : Bytes} (nonempty : b ≠ []) : nibbles b ≠ [] := by
  cases b with
  | nil => exact absurd rfl nonempty
  | cons x rest => simp [nibbles]

end Hex

/-! ## Byte strings -/

/-- A hexadecimal text is read in base 16 as the number of its bytes. -/
theorem Integer.read_ofBytes {b : Bytes} (nonempty : b ≠ []) :
    Integer.read 16 (Hex.ofBytes b) = .ok b.toNat := by
  have small : ∀ d ∈ Hex.nibbles b, d < 16 := fun d => Hex.lt_of_mem_nibbles
  have filled := Hex.nibbles_ne_nil nonempty
  have mark : CodePoint.isAscii '0' = true ∧ CodePoint.isAscii 'x' = true ∧
      CodePoint.isAsciiBlank '0' = false := by decide
  have ascii : Text.isAscii (Hex.ofBytes b) = true := by
    rw [Hex.ofBytes, Hex.digits_eq, Text.isAscii, List.all_cons, List.all_cons, mark.1, mark.2.1,
      Integer.isAscii_digits small]
    rfl
  have signed : Integer.sign ((Integer.plain (Hex.ofBytes b)).dropWhile CodePoint.isAsciiBlank)
      = (false, Hex.ofBytes b) := by
    rw [Integer.plain_of_isAscii ascii, Hex.ofBytes,
      List.dropWhile_cons_of_neg (by simp [mark.2.2])]
    rfl
  have marked : Integer.afterBaseMark 16 (Hex.ofBytes b)
      = (Hex.nibbles b).map CodePoint.ofDigit := by
    have after : Digits.afterMark? (Hex.ofBytes b) = some (Hex.digits b) := rfl
    rw [Integer.afterBaseMark, if_pos rfl, after, Hex.digits_eq]
    obtain ⟨d, rest, same⟩ := List.exists_cons_of_ne_nil filled
    have plain := (CodePoint.ofDigit_plain (small d (by simp [same]))).2.2.2
    rw [same, List.map_cons]
    simp [Text.after?, Ne.symm plain]
  have read := Integer.read_of_parts (Nat.le_refl 16) filled small (by omega) signed marked
  rw [read, Hex.value_nibbles]
  rfl

theorem Bytes.minimal_eq_nil {n : Nat} : Bytes.minimal n = [] ↔ n = 0 := by
  constructor
  · intro empty
    have value := Bytes.toNat_minimal n
    rw [empty] at value
    exact value.symm
  · intro same
    subst same
    rfl

theorem Hex.length_ofBytes_lt {b : Bytes} (nonempty : b ≠ []) : 2 < (Hex.ofBytes b).length := by
  have filled := List.length_pos_iff.mpr (Hex.nibbles_ne_nil nonempty)
  rw [Hex.ofBytes, Hex.digits_eq]
  simpa using filled

/-- A limit that is written is counted as it was. -/
theorem Sponsorship.limitValue_ofNat (n : Nat) :
    Sponsorship.limitValue (ByteString.ofNat n) = n := by
  unfold limitValue ByteString.ofNat
  by_cases zero : n = 0
  · subst zero
    rfl
  · have nonempty : Bytes.minimal n ≠ [] := fun empty => zero (Bytes.minimal_eq_nil.mp empty)
    rw [if_pos (Hex.length_ofBytes_lt nonempty), Integer.read_ofBytes nonempty,
      Bytes.toNat_minimal]
    rfl

/-- A hexadecimal text has no blanks around it. -/
theorem Hex.strip_ofBytes (b : Bytes) : (Hex.ofBytes b).strip = Hex.ofBytes b := by
  have table : ∀ d : Fin 16, (CodePoint.ofDigit d.val).isBlank = false := by decide
  have mark : CodePoint.isBlank '0' = false ∧ CodePoint.isBlank 'x' = false := by decide
  have solid : ∀ c ∈ Hex.ofBytes b, c.isBlank = false := by
    intro c member
    rw [Hex.ofBytes, Hex.digits_eq] at member
    rcases List.mem_cons.mp member with rfl | member
    · exact mark.1
    · rcases List.mem_cons.mp member with rfl | member
      · exact mark.2
      · obtain ⟨d, digit, rfl⟩ := List.mem_map.mp member
        exact table ⟨d, Hex.lt_of_mem_nibbles digit⟩
  exact Text.strip_of_bare (Text.bare_of_solid solid)

/-- A quantity that is written as a byte string is read back. -/
theorem Quantity.ofText_ofNat (n : Nat) : Quantity.ofText (ByteString.ofNat n) = .ok n := by
  have after : (Digits.afterMark? (Hex.ofBytes (Bytes.minimal n))).isSome = true := rfl
  unfold Quantity.ofText ByteString.ofNat
  rw [Hex.strip_ofBytes]
  simp only [after, if_true]
  by_cases zero : n = 0
  · subst zero
    rfl
  · have nonempty : Bytes.minimal n ≠ [] := fun empty => zero (Bytes.minimal_eq_nil.mp empty)
    rw [if_pos (Hex.length_ofBytes_lt nonempty), Integer.read_ofBytes nonempty,
      Bytes.toNat_minimal]
    rfl

end Paymaster

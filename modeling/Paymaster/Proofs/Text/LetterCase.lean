import Paymaster.Proofs.Text.Spelling

/-!
# Letter case of hexadecimal texts

The case of its letters does not change what a hexadecimal text denotes: neither the value of a
digit, nor the mark in front, nor the bytes (`Hex.read_of_lowered`), nor the address, which is
denoted by its spellings and by no other text (`Address.spells_iff`).
-/

namespace Paymaster

namespace CodePoint

theorem hexValue?_asciiLower (c : CodePoint) : c.asciiLower.hexValue? = c.hexValue? := by
  unfold asciiLower
  split
  · rename_i upper
    have lowered : (ofNat (c.val + 32)).val = c.val + 32 := val_ofNat (by omega)
    unfold hexValue?
    rw [lowered, if_neg (by omega), if_neg (show ¬(48 ≤ c.val ∧ c.val ≤ 57) by omega),
      if_neg (show ¬(97 ≤ c.val ∧ c.val ≤ 102) by omega)]
    by_cases letter : c.val ≤ 70
    · rw [if_pos (by omega), if_pos (by omega)]
      congr 1
    · rw [if_neg (by omega), if_neg (by omega), if_neg (by omega)]
  · rfl

/-- The code points that are lowered to one that is no capital. -/
theorem asciiLower_eq_iff {c d : CodePoint} (small : d.val < 65 ∨ 90 < d.val) :
    c.asciiLower = d ↔ c = d ∨ (65 ≤ c.val ∧ c.val ≤ 90 ∧ c.val + 32 = d.val) := by
  unfold asciiLower
  split
  · rename_i upper
    have lowered : (ofNat (c.val + 32)).val = c.val + 32 := val_ofNat (by omega)
    rw [Fin.ext_iff, Fin.ext_iff, lowered]
    omega
  · rename_i other
    rw [Fin.ext_iff]
    omega

theorem asciiLower_eq_zero {c : CodePoint} : c.asciiLower = '0' ↔ c = '0' := by
  rw [asciiLower_eq_iff (by decide), or_iff_left]
  rintro ⟨_, _, same⟩
  have zero : (ofChar '0').val = 48 := rfl
  omega

theorem asciiLower_eq_mark {c : CodePoint} : c.asciiLower = 'x' ↔ c = 'x' ∨ c = 'X' := by
  have small : (ofChar 'x').val = 120 := rfl
  have large : (ofChar 'X').val = 88 := rfl
  rw [asciiLower_eq_iff (by decide), Fin.ext_iff, Fin.ext_iff, small, large]
  omega

end CodePoint

/-! ## Marks -/

/-- A text in lower case with a mark is lowered from a text with a mark. -/
theorem Digits.eq_marked_of_lowered {t rest : Text}
    (lowered : t.map CodePoint.asciiLower = ('0' :: 'x' :: rest : Text)) :
    ∃ x digits, (x = CodePoint.ofChar 'x' ∨ x = CodePoint.ofChar 'X') ∧
      t = ('0' :: x :: digits : Text) ∧ digits.map CodePoint.asciiLower = rest := by
  obtain ⟨c, behind, rfl, zero, marked⟩ := List.map_eq_cons_iff.mp lowered
  obtain ⟨x, digits, rfl, mark, same⟩ := List.map_eq_cons_iff.mp marked
  rw [CodePoint.asciiLower_eq_zero] at zero
  subst zero
  exact ⟨x, digits, CodePoint.asciiLower_eq_mark.mp mark, rfl, same⟩

/-! ## Bytes and addresses -/

namespace Hex

theorem pairs?_map_asciiLower (t : Text) : pairs? (t.map CodePoint.asciiLower) = pairs? t := by
  induction t using pairs?.induct with
  | case1 => rfl
  | case2 c => rfl
  | case3 c d rest ih =>
    rw [List.map_cons, List.map_cons, pairs?, pairs?, CodePoint.hexValue?_asciiLower,
      CodePoint.hexValue?_asciiLower, ih]

/-- The digits of bytes are read in either case. -/
theorem read_of_lowered {t : Text} {b : Bytes} (lowered : t.map CodePoint.asciiLower = digits b) :
    read t = .ok b := by
  have pairs : pairs? t = some b := by rw [← pairs?_map_asciiLower, lowered, pairs?_digits]
  have length : t.length = 2 * b.length := by
    rw [← List.length_map CodePoint.asciiLower, lowered, length_digits]
  have even : evened t = t := by rw [evened, if_neg (by omega)]
  have encoded : Unencodable.find? CodePoint.isAscii t = none :=
    Unencodable.find?_eq_none_iff.mpr (List.all_eq_true.mp (isAscii_of_pairs? pairs))
  rw [read, even]
  simp only [encoded, pairs]

end Hex

namespace Address

/-- A text with the lower-case form of a spelling denotes the address. -/
theorem ofText?_of_lowered {t : Text} {x : Address} {marked : Bool}
    (lowered : t.map CodePoint.asciiLower = x.key marked) : ofText? t = some x := by
  rw [ofText?_eq_some]
  cases marked with
  | true =>
    obtain ⟨c, digits, mark, rfl, digitsLowered⟩ := Digits.eq_marked_of_lowered lowered
    rw [Hex.dropMark, Digits.afterMark?_marked mark, Option.getD_some,
      ← Hex.pairs?_map_asciiLower, digitsLowered, Hex.pairs?_digits]
  | false =>
    have digits : t.map CodePoint.asciiLower = Hex.digits x.bytes := lowered
    have unmarked : Digits.afterMark? t = none := by
      by_contra marked
      obtain ⟨rest, marked⟩ := Option.ne_none_iff_exists'.mp marked
      obtain ⟨c, mark, rfl⟩ := Digits.afterMark?_eq_some_iff.mp marked
      have other := Digits.afterMark?_digits x.bytes
      rw [← digits, List.map_cons, List.map_cons, CodePoint.asciiLower_eq_mark.mpr mark,
        CodePoint.asciiLower_eq_zero.mpr rfl] at other
      cases other
    rw [Hex.dropMark, unmarked, Option.getD_none, ← Hex.pairs?_map_asciiLower, digits,
      Hex.pairs?_digits]

/-- The spellings of an address: its digits in any letter case, with the mark or without it. -/
def Spells (a : Address) (t : Text) : Prop :=
  ∃ marked, t.map CodePoint.asciiLower = a.key marked

/-- A text denotes an address exactly if it spells it. -/
theorem spells_iff {a : Address} {t : Text} : a.Spells t ↔ ofText? t = some a := by
  refine ⟨fun ⟨_, lowered⟩ => ofText?_of_lowered lowered, fun denotes => ⟨t.isMarked, ?_⟩⟩
  have ascii : t.all CodePoint.isAscii = true := isAscii_of_ofText? denotes
  rw [← lower_eq_key denotes, Text.lower_of_ascii ascii]

/-- A text is recognized as an address exactly if it spells it in an allowed letter case. -/
theorem recognize?_iff {rule : CaseRule} {a : Address} {t : Text} :
    recognize? rule t = some a ↔ a.Spells t ∧ rule.allows a t = true := by
  rw [recognize?_eq_some_iff, spells_iff]

end Address

end Paymaster

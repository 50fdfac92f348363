import Paymaster.Engine.Grant
import Paymaster.Engine.Sponsor
import Paymaster.Ledger.Row
import Paymaster.Proofs.Number.Written
import Paymaster.Proofs.UserOperation.Reading

/-!
# Keys of accounts

A key is a text within ASCII that is its own lower-case form. The text of an address in
lower case is one (`Engine.isKey_of_addressKey`), and so is the key of a sender
(`Engine.isKey_senderKey`), so every key that an operation of the engine uses can be stored
and is found again as it is.
-/

namespace Paymaster

/-! ## Lower case within ASCII -/

namespace CodePoint

theorem isAscii_asciiLower {c : CodePoint} (ascii : c.isAscii = true) :
    c.asciiLower.isAscii = true := by
  have small : c.val < 128 := by simpa [isAscii] using ascii
  have small' : c.asciiLower.val < 128 := by
    unfold asciiLower
    split
    · rw [val_ofNat] <;> omega
    · exact small
  simpa [isAscii] using small'

theorem asciiLower_asciiLower (c : CodePoint) : c.asciiLower.asciiLower = c.asciiLower := by
  by_cases upper : 65 ≤ c.val ∧ c.val ≤ 90
  · have lowered : (CodePoint.ofNat (c.val + 32)).val = c.val + 32 := val_ofNat (by omega)
    rw [asciiLower, asciiLower, if_pos upper, if_neg (by omega)]
  · rw [asciiLower, asciiLower, if_neg upper, if_neg upper]

theorem isAscii_of_hexValue? {c : CodePoint} {d : Nat} (digit : c.hexValue? = some d) :
    c.isAscii = true := by
  have small : c.val < 128 := by
    unfold hexValue? at digit
    split at digit
    · omega
    · split at digit
      · omega
      · split at digit
        · omega
        · cases digit
  simpa [isAscii] using small

end CodePoint

namespace Text

/-- A text within ASCII that is its own lower-case form. -/
structure IsKey (t : Text) : Prop where
  ascii : t.isAscii = true
  lower : t.lower = t

/-- The lower-case form of a text within ASCII is a key. -/
theorem isKey_lower {t : Text} (ascii : t.isAscii = true) : t.lower.IsKey := by
  have points : ∀ c ∈ t, c.isAscii = true := by simpa [isAscii] using ascii
  have lowered : t.lower = t.map CodePoint.asciiLower := lower_of_ascii ascii
  have ascii' : t.lower.isAscii = true := by
    rw [lowered, isAscii, List.all_map, List.all_eq_true]
    exact fun c member => CodePoint.isAscii_asciiLower (points c member)
  refine ⟨ascii', ?_⟩
  rw [lower_of_ascii ascii', lowered, List.map_map]
  exact List.map_congr_left fun c _ => CodePoint.asciiLower_asciiLower c

/-- Keys can be stored. -/
theorem IsKey.storable {t : Text} (key : t.IsKey) : Row.storable t = true := by
  have points : ∀ c ∈ t, c.isAscii = true := by simpa [isAscii] using key.ascii
  rw [Row.storable, List.all_eq_true]
  intro c member
  have small : c.val < 128 := by simpa [CodePoint.isAscii] using points c member
  simp only [CodePoint.isSurrogate, Bool.not_eq_true', Bool.and_eq_false_imp, decide_eq_true_eq,
    decide_eq_false_iff_not]
  intro large
  omega

/-- What follows a leading text is the rest of the text. -/
theorem eq_append_of_after? {p t rest : Text} (follows : after? p t = some rest) :
    t = p ++ rest := by
  induction p generalizing t with
  | nil => simpa [after?] using follows
  | cons c p ih =>
    cases t with
    | nil => cases follows
    | cons d t =>
      simp only [after?] at follows
      split at follows
      · rename_i same
        rw [same, ih follows, List.cons_append]
      · cases follows

end Text

/-! ## Hexadecimal texts -/

/-- The two marks of hexadecimal digits. -/
theorem Digits.afterMark?_marked {x : CodePoint} (mark : x = 'x' ∨ x = 'X') (digits : Text) :
    afterMark? ('0' :: x :: digits) = some digits := by
  rcases mark with rfl | rfl <;> rfl

theorem Digits.afterMark?_eq_some_iff {t digits : Text} :
    afterMark? t = some digits ↔ ∃ x : CodePoint, (x = 'x' ∨ x = 'X') ∧
      t = ('0' :: x :: digits : Text) := by
  constructor
  · intro marked
    unfold afterMark? at marked
    rcases small : Text.after? ['0', 'x'] t with _ | after
    · rw [small, Option.none_or] at marked
      exact ⟨'X', .inr rfl, Text.eq_append_of_after? marked⟩
    · rw [small, Option.some_or] at marked
      cases marked
      exact ⟨'x', .inl rfl, Text.eq_append_of_after? small⟩
  · rintro ⟨x, mark, rfl⟩
    exact afterMark?_marked mark digits

namespace Hex

theorem isAscii_of_pairs? {t : Text} {b : Bytes} (read : pairs? t = some b) :
    t.isAscii = true := by
  induction t using pairs?.induct generalizing b with
  | case1 => rfl
  | case2 c => cases read
  | case3 c d rest ih =>
    simp only [pairs?, Option.bind_eq_bind, Option.bind_eq_some_iff, Option.pure_def,
      Option.some.injEq] at read
    obtain ⟨high, highRead, low, lowRead, tail, tailRead, -⟩ := read
    have inside := ih tailRead
    rw [Text.isAscii] at inside ⊢
    simp [CodePoint.isAscii_of_hexValue? highRead, CodePoint.isAscii_of_hexValue? lowRead, inside]

theorem isAscii_of_dropMark {t : Text} (ascii : (dropMark t).isAscii = true) :
    t.isAscii = true := by
  unfold dropMark at ascii
  rcases marked : Digits.afterMark? t with _ | rest
  · rwa [marked] at ascii
  · rw [marked] at ascii
    obtain ⟨x, mark, rfl⟩ := Digits.afterMark?_eq_some_iff.mp marked
    have prefixed : CodePoint.isAscii '0' = true ∧ x.isAscii = true := by
      rcases mark with rfl | rfl <;> decide
    rw [Text.isAscii, List.all_cons, List.all_cons, prefixed.1, prefixed.2]
    exact ascii

theorem isAscii_digits (b : Bytes) : (digits b).isAscii = true := by
  rw [Text.isAscii, List.all_eq_true]
  intro c member
  obtain ⟨byte, -, member⟩ := List.mem_flatMap.mp member
  have high : byte.toNat / 16 < 16 := by have := byte.toNat_lt; omega
  have low : byte.toNat % 16 < 16 := Nat.mod_lt _ (by omega)
  rcases List.mem_cons.mp member with rfl | member
  · exact CodePoint.isAscii_ofDigit high
  · rcases List.mem_cons.mp member with rfl | member
    · exact CodePoint.isAscii_ofDigit low
    · cases member

end Hex

/-! ## Addresses -/

theorem Address.isAscii_of_ofText? {t : Text} {a : Address} (spelled : ofText? t = some a) :
    t.isAscii = true := by
  unfold ofText? at spelled
  split at spelled
  · rename_i b read
    exact Hex.isAscii_of_dropMark (Hex.isAscii_of_pairs? read)
  · cases spelled

/-- A digit keeps within ASCII whatever the digest asks for. -/
theorem Address.isAscii_checksumDigit {digit nibble : CodePoint} (ascii : digit.isAscii = true) :
    (checksumDigit digit nibble).isAscii = true := by
  have small : digit.val < 128 := by simpa [CodePoint.isAscii] using ascii
  unfold checksumDigit
  split
  · have upper : (CodePoint.ofNat (digit.val - 32)).val = digit.val - 32 :=
      CodePoint.val_ofNat (by omega)
    simp only [CodePoint.isAscii, upper, decide_eq_true_eq]
    omega
  · exact ascii

theorem Address.isAscii_checksum (a : Address) : a.checksum.isAscii = true := by
  have digits : ∀ c ∈ Hex.digits a.bytes, c.isAscii = true := by
    simpa [Text.isAscii] using Hex.isAscii_digits a.bytes
  have zipped (nibbles : Text) :
      (List.zipWith checksumDigit (Hex.digits a.bytes) nibbles).all CodePoint.isAscii = true := by
    rw [List.all_eq_true]
    intro c member
    rw [List.mem_iff_getElem] at member
    obtain ⟨i, bound, rfl⟩ := member
    rw [List.getElem_zipWith]
    exact isAscii_checksumDigit (digits _ (List.getElem_mem _))
  have mark : CodePoint.isAscii '0' = true ∧ CodePoint.isAscii 'x' = true := by decide
  rw [checksum, Text.isAscii, List.all_cons, List.all_cons, mark.1, mark.2, zipped]
  rfl

namespace Engine

/-- The key of an address that is given as a value is a key. -/
theorem isKey_of_addressKey {address : Json} {key : Text} (given : addressKey address = .ok key) :
    key.IsKey := by
  unfold addressKey at given
  split at given
  · split at given
    · rename_i t recognized
      obtain ⟨a, spelled⟩ := Option.isSome_iff_exists.mp recognized
      rw [Address.recognize?_any] at spelled
      cases given
      exact Text.isKey_lower (Address.isAscii_of_ofText? spelled)
    · cases given
  · cases given

theorem isKey_senderKey {raw : Json} {op : UserOperation}
    (made : UserOperation.read raw = .ok op) : (senderKey op).IsKey := by
  rw [senderKey, UserOperation.senderText_of_read made]
  exact Text.isKey_lower (Address.isAscii_checksum op.sender)

end Engine

end Paymaster

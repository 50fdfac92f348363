import Paymaster.Proofs.Text.Keys
import Paymaster.Proofs.Number.Hexadecimal

/-!
# Spellings of an address

An address is spelled by its forty digits in either case, with or without a mark in front. In
lower case two spellings are left (`Address.key`): the marked one and the bare digits. Each of
them denotes the address (`Address.ofText?_key`), and a text that denotes an address becomes
one of them by its mark alone (`Address.lower_eq_key`). So a value that denotes an address has
either key (`Engine.addressKey_eq_ok`), while a sender always has the marked one
(`Engine.senderKey_eq_key`). One text of an address follows its checksum
(`Address.checksummed_iff`).

A library that recognizes addresses refuses some spellings for their letter case, and changes
nothing else: under any rule a value has the key that it has under the widest one
(`Engine.addressKey_of_rule`).
-/

namespace Paymaster

/-! ## Digits -/

namespace CodePoint

/-- A digit of either case is lowered to the digit of its value. -/
theorem asciiLower_of_hexValue? {c : CodePoint} {d : Nat} (digit : c.hexValue? = some d) :
    d < 16 ∧ c.asciiLower = ofDigit d := by
  have bound := c.isLt
  unfold hexValue? at digit
  split at digit
  · rename_i decimal
    cases digit
    refine ⟨by omega, Fin.ext ?_⟩
    rw [asciiLower, if_neg (by omega), ofDigit, if_pos (by omega), val_ofNat (by omega)]
    omega
  · split at digit
    · rename_i lower
      cases digit
      refine ⟨by omega, Fin.ext ?_⟩
      rw [asciiLower, if_neg (by omega), ofDigit, if_neg (by omega), val_ofNat (by omega)]
      omega
    · split at digit
      · rename_i upper
        cases digit
        refine ⟨by omega, Fin.ext ?_⟩
        rw [asciiLower, if_pos (by omega), ofDigit, if_neg (by omega), val_ofNat (by omega),
          val_ofNat (by omega)]
        omega
      · cases digit

/-- A digit is told by its value and by whether it is a letter in upper case. -/
theorem eq_of_hexValue? {c c' : CodePoint} {d : Nat} (digit : c.hexValue? = some d)
    (digit' : c'.hexValue? = some d)
    (sameCase : 65 ≤ c.val ∧ c.val ≤ 90 ↔ 65 ≤ c'.val ∧ c'.val ≤ 90) : c = c' := by
  have spelled {c : CodePoint} (digit : c.hexValue? = some d) :
      c.val = 48 + d ∧ d < 10 ∨ c.val = 87 + d ∧ 10 ≤ d ∨ c.val = 55 + d ∧ 10 ≤ d ∧ d < 16 := by
    unfold hexValue? at digit
    split at digit
    · cases digit
      omega
    · split at digit
      · cases digit
        omega
      · split at digit
        · cases digit
          omega
        · cases digit
  refine Fin.ext ?_
  have := spelled digit
  have := spelled digit'
  omega

/-- A digit in either case of the checksum is lowered to itself. -/
theorem asciiLower_checksumDigit {d : Nat} (small : d < 16) (nibble : CodePoint) :
    (Address.checksumDigit (ofDigit d) nibble).asciiLower = ofDigit d := by
  have table : ∀ d : Fin 16, (ofDigit d.val).asciiLower = ofDigit d.val ∧
      (97 ≤ (ofDigit d.val).val →
        (ofNat ((ofDigit d.val).val - 32)).asciiLower = ofDigit d.val) := by decide
  obtain ⟨kept, lowered⟩ := table ⟨d, small⟩
  unfold Address.checksumDigit
  split
  · rename_i upper
    exact lowered upper.1
  · exact kept

theorem ofDigit_ne_mark {d : Nat} (small : d < 16) : ofDigit d ≠ 'x' ∧ ofDigit d ≠ 'X' := by
  have table : ∀ d : Fin 16, ofDigit d.val ≠ 'x' ∧ ofDigit d.val ≠ 'X' := by decide
  exact table ⟨d, small⟩

end CodePoint

/-! ## Bytes -/

namespace Hex

theorem lt_of_byte (x : UInt8) : x.toNat / 16 < 16 ∧ x.toNat % 16 < 16 := by
  have bound := x.toNat_lt
  omega

theorem digits_cons (x : UInt8) (b : Bytes) :
    digits (x :: b)
      = CodePoint.ofDigit (x.toNat / 16) :: CodePoint.ofDigit (x.toNat % 16) :: digits b := rfl

theorem length_nibbles (b : Bytes) : (nibbles b).length = 2 * b.length := by
  induction b with
  | nil => rfl
  | cons x b ih =>
    have parts : nibbles (x :: b) = [x.toNat / 16, x.toNat % 16] ++ nibbles b := rfl
    rw [parts, List.length_append, ih, List.length_cons]
    simp only [List.length_cons, List.length_nil]
    omega

theorem length_digits (b : Bytes) : (digits b).length = 2 * b.length := by
  rw [digits_eq, List.length_map, length_nibbles]

/-- The digits of bytes are read as the bytes. -/
theorem pairs?_digits (b : Bytes) : pairs? (digits b) = some b := by
  induction b with
  | nil => rfl
  | cons x b ih =>
    obtain ⟨high, low⟩ := lt_of_byte x
    have whole : UInt8.ofNat (x.toNat / 16 * 16 + x.toNat % 16) = x := by
      rw [Nat.div_add_mod' x.toNat 16, UInt8.ofNat_toNat]
    rw [digits_cons, pairs?, CodePoint.hexValue?_ofDigit high, CodePoint.hexValue?_ofDigit low, ih]
    exact congrArg (fun y => some (y :: b)) whole

/-- A text that is read as bytes is lowered to their digits. -/
theorem map_asciiLower_of_pairs? {t : Text} {b : Bytes} (read : pairs? t = some b) :
    t.map CodePoint.asciiLower = digits b := by
  induction t using pairs?.induct generalizing b with
  | case1 =>
    cases read
    rfl
  | case2 c => cases read
  | case3 c d rest ih =>
    simp only [pairs?, Option.bind_eq_bind, Option.bind_eq_some_iff, Option.pure_def,
      Option.some.injEq] at read
    obtain ⟨high, highRead, low, lowRead, tail, tailRead, rfl⟩ := read
    obtain ⟨highSmall, highLower⟩ := CodePoint.asciiLower_of_hexValue? highRead
    obtain ⟨lowSmall, lowLower⟩ := CodePoint.asciiLower_of_hexValue? lowRead
    have value : (UInt8.ofNat (high * 16 + low)).toNat = high * 16 + low := by
      rw [UInt8.toNat_ofNat']
      omega
    have first : (high * 16 + low) / 16 = high := by omega
    have second : (high * 16 + low) % 16 = low := by omega
    rw [digits_cons, value, first, second, List.map_cons, List.map_cons, ih tailRead, highLower,
      lowLower]

end Hex

/-! ## Marks -/

/-- A text with the mark of hexadecimal digits in front. -/
def Text.isMarked (t : Text) : Bool :=
  (Digits.afterMark? t).isSome

theorem Digits.afterMark?_digits (b : Bytes) : afterMark? (Hex.digits b) = none := by
  cases b with
  | nil => rfl
  | cons x b =>
    obtain ⟨small, large⟩ := CodePoint.ofDigit_ne_mark (Hex.lt_of_byte x).2
    have other (mark : CodePoint) (ne : CodePoint.ofDigit (x.toNat % 16) ≠ mark) :
        Text.after? ['0', mark] (Hex.digits (x :: b)) = none := by
      rw [Hex.digits_cons, Text.after?]
      split
      · rw [Text.after?, if_neg (Ne.symm ne)]
      · rfl
    rw [afterMark?, other 'x' small, other 'X' large]
    rfl

/-! ## Addresses -/

namespace Address

/-- The spelling of an address in lower case, with the mark or without it. -/
def key (x : Address) (marked : Bool) : Text :=
  if marked then x.lower else Hex.digits x.bytes

theorem ofText?_eq_some {t : Text} {x : Address} :
    ofText? t = some x ↔ Hex.pairs? (Hex.dropMark t) = some x.bytes := by
  unfold ofText?
  cases read : Hex.pairs? (Hex.dropMark t) with
  | none => simp
  | some b =>
    rcases x with ⟨bytes, size⟩
    simp only
    split
    · simp
    · rename_i other
      simp only [reduceCtorEq, Option.some.injEq, false_iff]
      rintro rfl
      exact other size

@[simp] theorem isMarked_key (x : Address) (marked : Bool) : (x.key marked).isMarked = marked := by
  cases marked with
  | true => rfl
  | false =>
    show (Digits.afterMark? (Hex.digits x.bytes)).isSome = false
    rw [Digits.afterMark?_digits]
    rfl

/-- Both spellings in lower case denote the address. -/
@[simp] theorem ofText?_key (x : Address) (marked : Bool) : ofText? (x.key marked) = some x := by
  rw [ofText?_eq_some]
  have bare : Hex.dropMark (x.key marked) = Hex.digits x.bytes := by
    cases marked with
    | true => rfl
    | false =>
      show (Digits.afterMark? (Hex.digits x.bytes)).getD (Hex.digits x.bytes) = _
      rw [Digits.afterMark?_digits]
      rfl
  rw [bare, Hex.pairs?_digits]

/-- The two spellings of all addresses are different texts. -/
theorem key_inj {x y : Address} {marked marked' : Bool} (same : x.key marked = y.key marked') :
    x = y ∧ marked = marked' := by
  have address := congrArg ofText? same
  have mark := congrArg Text.isMarked same
  simp only [ofText?_key, Option.some.injEq, isMarked_key] at address mark
  exact ⟨address, mark⟩

/-- A text that denotes an address is lowered to the spelling that its mark decides. -/
theorem lower_eq_key {t : Text} {x : Address} (denotes : ofText? t = some x) :
    t.lower = x.key t.isMarked := by
  have ascii : t.all CodePoint.isAscii = true := isAscii_of_ofText? denotes
  rw [Text.lower_of_ascii ascii]
  rw [ofText?_eq_some] at denotes
  rcases mark : Digits.afterMark? t with _ | rest
  · have bare : Hex.dropMark t = t := by rw [Hex.dropMark, mark]; rfl
    rw [bare] at denotes
    rw [Hex.map_asciiLower_of_pairs? denotes, Text.isMarked, mark]
    rfl
  · have bare : Hex.dropMark t = rest := by rw [Hex.dropMark, mark]; rfl
    rw [bare] at denotes
    obtain ⟨c, letter, same⟩ := Digits.afterMark?_eq_some_iff.mp mark
    have zero : (CodePoint.ofChar '0').asciiLower = '0' := by decide
    have lowered : c.asciiLower = 'x' := by rcases letter with rfl | rfl <;> decide
    rw [Text.isMarked, mark, same, List.map_cons, List.map_cons, lowered, zero,
      Hex.map_asciiLower_of_pairs? denotes]
    rfl

/-- Digits whose case a digest decides are lowered to the digits. -/
theorem map_asciiLower_zipWith {ds : List Nat} (small : ∀ d ∈ ds, d < 16) {nibbles : Text}
    (enough : ds.length ≤ nibbles.length) :
    (List.zipWith checksumDigit (ds.map CodePoint.ofDigit) nibbles).map CodePoint.asciiLower
      = ds.map CodePoint.ofDigit := by
  induction ds generalizing nibbles with
  | nil => rfl
  | cons d ds ih =>
    cases nibbles with
    | nil => simp at enough
    | cons nibble nibbles =>
      have rest := ih (fun d member => small d (by simp [member])) (by simpa using enough)
      rw [List.map_cons, List.zipWith_cons_cons, List.map_cons, rest,
        CodePoint.asciiLower_checksumDigit (small d (by simp))]

theorem lower_checksum (x : Address) : x.checksum.lower = x.key true := by
  have enough : (Hex.nibbles x.bytes).length ≤
      (Hex.digits (Keccak.hash (Bytes.ofAscii (Hex.digits x.bytes)))).length := by
    rw [Hex.length_nibbles, Hex.length_digits, x.size, Keccak.length_hash]
    omega
  have mark : (CodePoint.ofChar '0').asciiLower = '0'
      ∧ (CodePoint.ofChar 'x').asciiLower = 'x' := by
    decide
  have digits := map_asciiLower_zipWith (fun d => Hex.lt_of_mem_nibbles) enough
  rw [← Hex.digits_eq] at digits
  rw [Text.lower_of_ascii (isAscii_checksum x), checksum, List.map_cons, List.map_cons, mark.1,
    mark.2, digits]
  rfl

/-- The checksummed text of an address: behind the mark the digit of each nibble, a letter in upper
case exactly where the digest of the digits in lower case has a nibble of eight or more. -/
def Checksummed (a : Address) (t : Text) : Prop :=
  ∃ digits : Text, t = ('0' :: 'x' :: digits : Text) ∧ digits.length = 40 ∧
    ∀ (i : Nat) (c : CodePoint) (d n : Nat), digits[i]? = some c →
      (Hex.nibbles a.bytes)[i]? = some d →
      (Hex.nibbles (Keccak.hash (Bytes.ofAscii (Hex.digits a.bytes))))[i]? = some n →
      c.hexValue? = some d ∧ (65 ≤ c.val ∧ c.val ≤ 90 ↔ 10 ≤ d ∧ 8 ≤ n)

theorem checksumDigit_ofDigit {d n : Nat} (small : d < 16) (small' : n < 16) :
    let c := checksumDigit (CodePoint.ofDigit d) (CodePoint.ofDigit n)
    c.hexValue? = some d ∧ (65 ≤ c.val ∧ c.val ≤ 90 ↔ 10 ≤ d ∧ 8 ≤ n) := by
  have table : ∀ d n : Fin 16,
      let c := checksumDigit (CodePoint.ofDigit d.val) (CodePoint.ofDigit n.val)
      c.hexValue? = some d.val ∧ (65 ≤ c.val ∧ c.val ≤ 90 ↔ 10 ≤ d.val ∧ 8 ≤ n.val) := by
    decide +kernel
  exact table ⟨d, small⟩ ⟨n, small'⟩

theorem length_nibbles (a : Address) : (Hex.nibbles a.bytes).length = 40 := by
  rw [Hex.length_nibbles, a.size]

theorem length_digest (a : Address) :
    (Hex.nibbles (Keccak.hash (Bytes.ofAscii (Hex.digits a.bytes)))).length = 64 := by
  rw [Hex.length_nibbles, Keccak.length_hash]

theorem checksummed_checksum (a : Address) : a.Checksummed a.checksum := by
  have zipped : a.checksum = ('0' :: 'x' :: List.zipWith checksumDigit
      ((Hex.nibbles a.bytes).map CodePoint.ofDigit)
      ((Hex.nibbles (Keccak.hash (Bytes.ofAscii (Hex.digits a.bytes)))).map CodePoint.ofDigit)
        : Text) := by
    rw [← Hex.digits_eq, ← Hex.digits_eq]
    rfl
  refine ⟨_, zipped, ?_, fun i c d n here digit nibble => ?_⟩
  · rw [List.length_zipWith, List.length_map, List.length_map, a.length_digest, a.length_nibbles]
    rfl
  · have small := Hex.lt_of_mem_nibbles (List.mem_of_getElem? digit)
    have small' := Hex.lt_of_mem_nibbles (List.mem_of_getElem? nibble)
    rw [List.getElem?_zipWith, List.getElem?_map, List.getElem?_map, digit, nibble] at here
    cases here
    exact checksumDigit_ofDigit small small'

/-- An address has one checksummed text. -/
theorem Checksummed.unique {a : Address} {t t' : Text} (checked : a.Checksummed t)
    (checked' : a.Checksummed t') : t = t' := by
  obtain ⟨digits, rfl, length, each⟩ := checked
  obtain ⟨digits', rfl, length', each'⟩ := checked'
  have same : digits = digits' := by
    refine List.ext_getElem (length.trans length'.symm) fun i bound bound' => ?_
    have inside : i < (Hex.nibbles a.bytes).length := by
      rw [a.length_nibbles, ← length]
      exact bound
    have inDigest :
        i < (Hex.nibbles (Keccak.hash (Bytes.ofAscii (Hex.digits a.bytes)))).length := by
      rw [a.length_digest]
      omega
    have here := each i _ _ _ (List.getElem?_eq_getElem bound) (List.getElem?_eq_getElem inside)
      (List.getElem?_eq_getElem inDigest)
    have there := each' i _ _ _ (List.getElem?_eq_getElem bound')
      (List.getElem?_eq_getElem inside) (List.getElem?_eq_getElem inDigest)
    exact CodePoint.eq_of_hexValue? here.1 there.1 (here.2.trans there.2.symm)
  rw [same]

theorem checksummed_iff {a : Address} {t : Text} : a.Checksummed t ↔ t = a.checksum := by
  constructor
  · exact fun checked => checked.unique a.checksummed_checksum
  · rintro rfl
    exact a.checksummed_checksum

end Address

/-! ## Keys -/

namespace Engine

/-- The values that denote an address are its spellings, and the key of each is the spelling
in lower case with the same mark. -/
theorem addressKey_eq_ok {address : Json} {key : Text} :
    addressKey address = .ok key ↔
      ∃ t x, address = .text t ∧ Address.ofText? t = some x ∧ key = x.key t.isMarked := by
  unfold addressKey
  constructor
  · intro given
    split at given
    · split at given
      · rename_i t recognized
        obtain ⟨x, denotes⟩ := Option.isSome_iff_exists.mp recognized
        rw [Address.recognize?_any] at denotes
        cases given
        exact ⟨t, x, rfl, denotes, Address.lower_eq_key denotes⟩
      · cases given
    · cases given
  · rintro ⟨t, x, rfl, denotes, rfl⟩
    have recognized : (Address.recognize? .any t).isSome = true := by
      rw [Address.recognize?_any, denotes]
      rfl
    simp only [recognized, if_true, Address.lower_eq_key denotes]

/-- Under any rule for letter case a value has no other key. -/
theorem addressKey_of_rule {rule : Address.CaseRule} {address : Json} {key : Text}
    (given : addressKey address rule = .ok key) : addressKey address = .ok key := by
  unfold addressKey at given
  split at given
  · split at given
    · rename_i t recognized
      obtain ⟨x, recognized⟩ := Option.isSome_iff_exists.mp recognized
      have denotes := (Address.recognize?_eq_some_iff.mp recognized).1
      cases given
      exact addressKey_eq_ok.mpr ⟨t, x, rfl, denotes, Address.lower_eq_key denotes⟩
    · cases given
  · cases given

/-- A sender has the key with the mark, however it was spelled. -/
theorem senderKey_eq_key {raw : Json} {op : UserOperation}
    (made : UserOperation.read raw = .ok op) : senderKey op = op.sender.key true := by
  rw [senderKey, UserOperation.senderText_of_read made, op.sender.lower_checksum]

end Engine

end Paymaster

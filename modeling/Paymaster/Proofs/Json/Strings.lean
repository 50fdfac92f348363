import Mathlib.Data.List.Chain
import Paymaster.Json.Reader
import Paymaster.Json.Writer
import Paymaster.Proofs.Number.Decimal

/-!
# Written strings are read back

In the written form of a text every code point stands for itself, for a letter behind a
backslash, or for one or two sixteen-bit units (`Json.pieces_writtenPoint`). The reader makes one
code point of a high unit and the low unit behind it, whether they were written as one or as two;
so a written text is read back with its pairs of lone surrogates joined
(`Json.readString_written`), and as it was exactly if it has no such pair (`Text.paired_eq_self`,
`Text.unsplit_paired`).
-/

namespace Paymaster

/-! ## Pairs of surrogates -/

namespace CodePoint

/-- The first half of a pair. -/
def IsHigh (c : CodePoint) : Prop :=
  0xD800 ≤ c.val ∧ c.val < 0xDC00

/-- The second half of a pair. -/
def IsLow (c : CodePoint) : Prop :=
  0xDC00 ≤ c.val ∧ c.val < 0xE000

instance (c : CodePoint) : Decidable c.IsHigh :=
  inferInstanceAs (Decidable (_ ∧ _))

instance (c : CodePoint) : Decidable c.IsLow :=
  inferInstanceAs (Decidable (_ ∧ _))

/-- The code point that two halves make. -/
def pair (high low : CodePoint) : CodePoint :=
  ofNat (0x10000 + (high.val - 0xD800) * 0x400 + (low.val - 0xDC00))

theorem ofNat_val (c : CodePoint) : ofNat c.val = c := by
  simp [ofNat]

theorem le_val_pair {high low : CodePoint} (first : high.IsHigh) (second : low.IsLow) :
    0x10000 ≤ (pair high low).val := by
  obtain ⟨-, first⟩ := first
  obtain ⟨-, second⟩ := second
  rw [pair, val_ofNat (by omega)]
  omega

/-- Printable ASCII. -/
def IsPrint (c : CodePoint) : Prop :=
  32 ≤ c.val ∧ c.val < 127

instance (c : CodePoint) : Decidable c.IsPrint :=
  inferInstanceAs (Decidable (_ ∧ _))

end CodePoint

namespace Text

/-- A text with every high surrogate joined to the low one behind it. -/
def paired : Text → Text
  | [] => []
  | [c] => [c]
  | c :: d :: rest =>
    if c.IsHigh ∧ d.IsLow then CodePoint.pair c d :: paired rest else c :: paired (d :: rest)

/-- A text in which no high surrogate stands before a low one. -/
def Unsplit (t : Text) : Prop :=
  t.IsChain fun c d => ¬(c.IsHigh ∧ d.IsLow)

instance (t : Text) : Decidable t.Unsplit :=
  inferInstanceAs (Decidable (t.IsChain _))

theorem paired_eq_self {t : Text} (unsplit : t.Unsplit) : t.paired = t := by
  fun_induction paired t with
  | case1 => rfl
  | case2 c => rfl
  | case3 c d rest pair _ => exact absurd pair (List.isChain_cons_cons.mp unsplit).1
  | case4 c d rest _ ih => rw [ih (List.isChain_cons_cons.mp unsplit).2]

/-- Joining leaves the first code point, or puts a pair in its place. -/
theorem head_paired (c : CodePoint) (rest : Text) :
    ∃ d more, paired (c :: rest) = d :: more ∧ (d = c ∨ 0x10000 ≤ d.val) := by
  cases rest with
  | nil => exact ⟨c, [], rfl, .inl rfl⟩
  | cons d rest =>
    rw [paired]
    split_ifs with pair
    · exact ⟨_, _, rfl, .inr (CodePoint.le_val_pair pair.1 pair.2)⟩
    · exact ⟨c, _, rfl, .inl rfl⟩

theorem unsplit_paired (t : Text) : t.paired.Unsplit := by
  fun_induction paired t with
  | case1 => exact .nil
  | case2 c => exact .singleton c
  | case3 c d rest pair ih =>
    have joined := CodePoint.le_val_pair pair.1 pair.2
    cases behind : paired rest with
    | nil => exact .singleton _
    | cons e more =>
      rw [behind] at ih
      refine List.isChain_cons_cons.mpr ⟨fun other => ?_, ih⟩
      have high := other.1.2
      omega
  | case4 c d rest apart ih =>
    obtain ⟨e, more, joined, same⟩ := head_paired d rest
    rw [joined] at ih ⊢
    refine List.isChain_cons_cons.mpr ⟨fun other => ?_, ih⟩
    rcases same with rfl | joined
    · exact apart other
    · have low := other.2.2
      omega

end Text

namespace Json

/-! ## Pieces -/

/-- The code points that are written as a letter behind a backslash. -/
def lettered : Text :=
  ['"', '\\', '\x08', '\x0c', '\n', '\r', '\t']

/-- The pieces of the written form of a code point. -/
def writtenPieces (c : CodePoint) : List Piece :=
  if c ∈ lettered ∨ c.IsPrint then [.plain c]
  else if c.val < 0x10000 then [.unit c.val]
  else [.unit (0xD800 + (c.val - 0x10000) / 0x400), .unit (0xDC00 + (c.val - 0x10000) % 0x400)]

/-- What has no letter stands for itself or for its units. -/
theorem writtenPoint_of_not_lettered {c : CodePoint} (letter : c ∉ lettered) :
    writtenPoint .spaced c =
      if c.IsPrint then [c]
      else if c.val < 0x10000 then escapedUnit c.val
      else escapedUnit (0xD800 + (c.val - 0x10000) / 0x400)
        ++ escapedUnit (0xDC00 + (c.val - 0x10000) % 0x400) := by
  simp only [lettered, List.mem_cons, List.not_mem_nil, or_false, not_or] at letter
  obtain ⟨quote, slash, b, f, n, r, t⟩ := letter
  simp only [writtenPoint, if_neg quote, if_neg slash, if_neg b, if_neg f, if_neg n, if_neg r,
    if_neg t, CodePoint.IsPrint, Layout.spaced, Bool.not_true, Bool.false_eq_true, or_false]
  rfl

/-- A letter behind a backslash is read as what it stands for. -/
theorem pieces_escape {e c : CodePoint} (other : e ≠ 'u') (stands : escape? e = some c)
    (rest : Text) : pieces (('\\' : CodePoint) :: e :: rest) =
      (pieces rest).map fun (ps, after) => (.plain c :: ps, after) := by
  have quote : (('\\' : CodePoint) = '"') = False := by decide
  rw [pieces.eq_def]
  simp only [quote, if_false, if_true, if_neg other, stands]

theorem pieces_print {c : CodePoint} (print : c.IsPrint) (quote : c ≠ '"') (slash : c ≠ '\\')
    (rest : Text) :
    pieces (c :: rest) = (pieces rest).map fun (ps, after) => (.plain c :: ps, after) := by
  have high : ¬c.val < 32 := by
    have := print.1
    omega
  rw [pieces.eq_def]
  simp only [if_neg quote, if_neg slash, if_neg high]

/-- Four hexadecimal digits are read as the unit that they were written for. -/
theorem pieces_escapedUnit {n : Nat} (small : n < 0x10000) (rest : Text) :
    pieces (escapedUnit n ++ rest) =
      (pieces rest).map fun (ps, after) => (.unit n :: ps, after) := by
  have four : (Digits.filled 16 4 n).length = 4 := Digits.length_filled (by decide) small
  have digits : ∀ d ∈ Digits.filled 16 4 n, d < 16 := Digits.lt_of_mem_filled (by decide)
  have value := Digits.value_filled (by decide : 2 ≤ 16) 4 n
  rw [escapedUnit, Digits.padded_eq]
  generalize Digits.filled 16 4 n = ds at four digits value ⊢
  obtain ⟨p, q, r, s, rfl⟩ : ∃ p q r s, ds = [p, q, r, s] := by
    match ds, four with
    | [p, q, r, s], _ => exact ⟨p, q, r, s, rfl⟩
  have hex {d : Nat} (member : d ∈ [p, q, r, s]) : (CodePoint.ofDigit d).hexValue? = some d :=
    CodePoint.hexValue?_ofDigit (digits d member)
  have read : unit? (.ofDigit p) (.ofDigit q) (.ofDigit r) (.ofDigit s) = some n := by
    rw [← value, unit?, hex (by simp), hex (by simp), hex (by simp), hex (by simp)]
    rfl
  have quote : (('\\' : CodePoint) = '"') = False := by decide
  simp only [List.map_cons, List.map_nil, List.cons_append, List.nil_append, pieces, quote,
    if_false, if_true, read]

/-- The written form of a code point is read as its pieces. -/
theorem pieces_writtenPoint (c : CodePoint) (rest : Text) :
    pieces (writtenPoint .spaced c ++ rest) =
      (pieces rest).map fun (ps, after) => (writtenPieces c ++ ps, after) := by
  have bound : c.val < 0x110000 := c.isLt
  by_cases letter : c ∈ lettered
  · simp only [lettered, List.mem_cons, List.not_mem_nil, or_false] at letter
    rcases letter with rfl | rfl | rfl | rfl | rfl | rfl | rfl <;>
      exact pieces_escape (by decide) rfl rest
  rw [writtenPoint_of_not_lettered letter]
  simp only [writtenPieces, letter, false_or]
  split_ifs with print one
  · refine pieces_print print ?_ ?_ rest
    · rintro rfl
      exact letter (by decide)
    · rintro rfl
      exact letter (by decide)
  · exact pieces_escapedUnit one rest
  · rw [List.append_assoc, pieces_escapedUnit (by omega), pieces_escapedUnit (by omega),
      Option.map_map]
    rfl

/-- A written text is read as the pieces of its code points. -/
theorem pieces_written (t rest : Text) :
    pieces (t.flatMap (writtenPoint .spaced) ++ ('"' : CodePoint) :: rest) =
      some (t.flatMap writtenPieces, rest) := by
  induction t with
  | nil =>
    rw [List.flatMap_nil, List.nil_append, pieces.eq_def]
    simp only [if_true, List.flatMap_nil]
  | cons c t ih =>
    rw [List.flatMap_cons, List.append_assoc, pieces_writtenPoint, ih]
    rfl

/-! ## Joining -/

/-- A unit that is no first half, or has no second half behind it, stands alone. -/
theorem join_unit (c : CodePoint) {ps : List Piece}
    (alone : ∀ k, ps.head? = some (.unit k) → c.IsHigh → ¬(0xDC00 ≤ k ∧ k < 0xE000)) :
    Piece.join (.unit c.val :: ps) = c :: Piece.join ps := by
  match ps with
  | [] => simp only [Piece.join, CodePoint.ofNat_val]
  | .plain d :: ps => simp only [Piece.join, CodePoint.ofNat_val]
  | .unit k :: ps =>
    have apart : ¬(0xD800 ≤ c.val ∧ c.val < 0xDC00 ∧ 0xDC00 ≤ k ∧ k < 0xE000) :=
      fun both => alone k rfl ⟨both.1, both.2.1⟩ both.2.2
    rw [Piece.join, if_neg apart, CodePoint.ofNat_val]

/-- The pieces of a code point start with a second half only if it is one. -/
theorem head_writtenPieces {d : CodePoint} (other : ¬d.IsLow) (ps : List Piece) {k : Nat}
    (head : (writtenPieces d ++ ps).head? = some (.unit k)) : ¬(0xDC00 ≤ k ∧ k < 0xE000) := by
  have bound : d.val < 0x110000 := d.isLt
  unfold writtenPieces at head
  split_ifs at head
  · cases head
  · cases head
    exact other
  · cases head
    omega

/-- The pieces of a code point that is no first half stand for it. -/
theorem join_writtenPieces (c : CodePoint) (ps : List Piece)
    (alone : ∀ k, ps.head? = some (.unit k) → c.IsHigh → ¬(0xDC00 ≤ k ∧ k < 0xE000)) :
    Piece.join (writtenPieces c ++ ps) = c :: Piece.join ps := by
  have bound : c.val < 0x110000 := c.isLt
  unfold writtenPieces
  split_ifs with plain one
  · rfl
  · exact join_unit c alone
  · have whole : 0x10000 + (0xD800 + (c.val - 0x10000) / 0x400 - 0xD800) * 0x400 +
        (0xDC00 + (c.val - 0x10000) % 0x400 - 0xDC00) = c.val := by
      omega
    rw [List.cons_append, List.cons_append, Piece.join, if_pos (by omega), whole,
      CodePoint.ofNat_val]
    rfl

theorem writtenPieces_surrogate {c : CodePoint} (low : 0xD800 ≤ c.val) (high : c.val < 0xE000) :
    writtenPieces c = [.unit c.val] := by
  have letter : c ∉ lettered := by
    intro member
    have small : ∀ d ∈ lettered, d.val < 128 := by simp [lettered]
    have := small c member
    omega
  have plain : ¬c.IsPrint := by
    intro print
    have := print.2
    omega
  rw [writtenPieces, if_neg (not_or.mpr ⟨letter, plain⟩), if_pos (by omega)]

/-- The pieces of a text are joined to the text with its pairs joined. -/
theorem join_flatMap_writtenPieces (t : Text) :
    Piece.join (t.flatMap writtenPieces) = t.paired := by
  fun_induction Text.paired t with
  | case1 => rfl
  | case2 c =>
    rw [List.flatMap_cons, List.flatMap_nil, join_writtenPieces c [] (by simp)]
    rfl
  | case3 c d rest pair ih =>
    obtain ⟨first, second⟩ := pair
    have high := first.2
    have low := second.1
    rw [List.flatMap_cons, List.flatMap_cons, writtenPieces_surrogate first.1 (by omega),
      writtenPieces_surrogate (by omega) second.2, List.singleton_append, List.singleton_append,
      Piece.join, if_pos ⟨first.1, first.2, second.1, second.2⟩, ih]
    rfl
  | case4 c d rest apart ih =>
    rw [List.flatMap_cons, join_writtenPieces, ih]
    intro k head high
    exact head_writtenPieces (fun low => apart ⟨high, low⟩) _ head

/-- A written text is read back with its pairs joined. -/
theorem readString_written (t rest : Text) :
    readString (t.flatMap (writtenPoint .spaced) ++ ('"' : CodePoint) :: rest) =
      some (t.paired, rest) := by
  rw [readString, pieces_written]
  exact congrArg (fun t => some (t, rest)) (join_flatMap_writtenPieces t)

end Json

end Paymaster

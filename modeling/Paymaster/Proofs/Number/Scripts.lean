import Mathlib.Data.List.Forall2
import Paymaster.Proofs.Text.Blanks
import Paymaster.Proofs.Text.Keys

/-!
# Integers in any script

An integer without a sign is written by digits with single underscores between them
(`Integer.Grouped`), and beyond ASCII the decimal digits of every script count
(`Integer.anyDigit?`). A text without blanks around it is read exactly if it has this form, in
base 10 (`Integer.read_decimal_iff`) and behind the mark of base 16, where an underscore may also
stand first (`Integer.read_marked_iff`).
-/

namespace Paymaster

/-! ## Digits of all scripts -/

namespace CodePoint

/-- The runs of blanks. -/
def blankRanges : List (Nat × Nat) :=
  [(9, 13), (28, 32), (0x85, 0x85), (0xA0, 0xA0), (0x1680, 0x1680), (0x2000, 0x200A),
   (0x2028, 0x2029), (0x202F, 0x202F), (0x205F, 0x205F), (0x3000, 0x3000)]

/-- Within ASCII blanks come before everything that is printed. -/
theorem val_of_isBlank {c : CodePoint} (blank : c.isBlank = true) : c.val ≤ 32 ∨ 133 ≤ c.val := by
  have apart : ∀ blanks ∈ blankRanges, blanks.2 ≤ 32 ∨ 133 ≤ blanks.1 := by decide
  obtain ⟨blanks, among, inside⟩ : ∃ blanks ∈ blankRanges,
    (blanks.1 ≤ c.val && c.val ≤ blanks.2) = true := List.any_eq_true.mp blank
  have off := apart blanks among
  simp only [Bool.and_eq_true, decide_eq_true_eq] at inside
  omega

/-- The blanks and the decimal digits lie apart. -/
theorem decimalValue?_of_isBlank {c : CodePoint} (blank : c.isBlank = true) :
    c.decimalValue? = none := by
  have apart : ∀ blanks ∈ blankRanges,
      ∀ digits ∈ decimalRanges, blanks.2 < digits.1 ∨ digits.2 < blanks.1 := by decide
  have off := val_of_isBlank blank
  obtain ⟨blanks, among, inside⟩ : ∃ blanks ∈ blankRanges,
    (blanks.1 ≤ c.val && c.val ≤ blanks.2) = true := List.any_eq_true.mp blank
  simp only [Bool.and_eq_true, decide_eq_true_eq] at inside
  unfold decimalValue?
  split
  · have noDigit : c.isAsciiDigit = false := by
      simp only [isAsciiDigit, Bool.and_eq_false_imp, decide_eq_true_eq, decide_eq_false_iff_not]
      omega
    rw [if_neg (by simp [noDigit])]
  · have missed : rangeOf? decimalRanges c = none := by
      rw [rangeOf?, List.find?_eq_none]
      intro digits member
      have other := apart blanks among digits member
      simp only [Bool.and_eq_true, decide_eq_true_eq]
      omega
    rw [missed]
    rfl

theorem isBlank_of_hexValue? {c : CodePoint} {d : Nat} (digit : c.hexValue? = some d) :
    c.isBlank = false := by
  by_contra blank
  have off := val_of_isBlank (Bool.not_eq_false _ ▸ blank)
  rw [hexValue?, if_neg (by omega), if_neg (by omega), if_neg (by omega)] at digit
  cases digit

theorem decimalValue?_lt {c : CodePoint} {d : Nat} (digit : c.decimalValue? = some d) : d < 10 := by
  unfold decimalValue? at digit
  split at digit
  · split at digit
    · rename_i ascii
      simp only [isAsciiDigit, Bool.and_eq_true, decide_eq_true_eq] at ascii
      cases digit
      omega
    · cases digit
  · obtain ⟨run, -, rfl⟩ := Option.map_eq_some_iff.mp digit
    exact Nat.mod_lt _ (by decide)

/-- Every decimal digit is a digit form. -/
theorem isDigitForm_of_decimalValue? {c : CodePoint} {d : Nat} (digit : c.decimalValue? = some d) :
    c.isDigitForm = true := by
  have within : ∀ run ∈ decimalRanges, ∃ wider ∈ digitRanges,
      wider.1 ≤ run.1 ∧ run.2 ≤ wider.2 := by
    decide +kernel
  unfold decimalValue? at digit
  unfold isDigitForm
  split at digit
  · rename_i ascii
    rw [if_pos ascii]
    split at digit
    · assumption
    · cases digit
  · rename_i beyond
    rw [if_neg beyond]
    obtain ⟨run, found, -⟩ := Option.map_eq_some_iff.mp digit
    have inside := List.find?_some found
    simp only [Bool.and_eq_true, decide_eq_true_eq] at inside
    obtain ⟨wider, member, low, high⟩ := within run (List.mem_of_find?_eq_some found)
    refine List.any_eq_true.mpr ⟨wider, member, ?_⟩
    simp only [Bool.and_eq_true, decide_eq_true_eq]
    omega

end CodePoint

namespace Integer

/-- The value of a digit of a base: the ASCII digits of the base and, beyond ASCII, the decimal
digits of every script. -/
def anyDigit? (base : Nat) (c : CodePoint) : Option Nat :=
  (c.hexValue?.or c.decimalValue?).filter (· < base)

theorem digit?_eq_some_iff {base : Nat} {c : CodePoint} {d : Nat} :
    digit? base c = some d ↔ c.hexValue? = some d ∧ d < base := by
  simp [digit?, Option.filter_eq_some_iff]

theorem anyDigit?_eq_some_iff {base : Nat} {c : CodePoint} {d : Nat} :
    anyDigit? base c = some d ↔ (c.hexValue?.or c.decimalValue?) = some d ∧ d < base := by
  simp [anyDigit?, Option.filter_eq_some_iff]

/-- An ASCII digit is one among those of all scripts. -/
theorem anyDigit?_of_digit? {base : Nat} {c : CodePoint} {d : Nat}
    (digit : digit? base c = some d) : anyDigit? base c = some d := by
  obtain ⟨value, small⟩ := digit?_eq_some_iff.mp digit
  rw [anyDigit?_eq_some_iff, value]
  exact ⟨rfl, small⟩

/-- A decimal digit of any script is a digit form. -/
theorem isDigitForm_of_anyDigit? {c : CodePoint} {d : Nat} (digit : anyDigit? 10 c = some d) :
    c.isDigitForm = true := by
  obtain ⟨value, small⟩ := anyDigit?_eq_some_iff.mp digit
  rcases hex : c.hexValue? with _ | e
  · rw [hex, Option.none_or] at value
    exact CodePoint.isDigitForm_of_decimalValue? value
  · rw [hex, Option.some_or] at value
    cases value
    have decimal : c.isAsciiDigit = true := by
      unfold CodePoint.hexValue? at hex
      rw [CodePoint.isAsciiDigit, Bool.and_eq_true, decide_eq_true_eq, decide_eq_true_eq]
      -- the values of letters are no decimal ones
      split at hex
      · assumption
      · split at hex
        · cases hex
          omega
        · split at hex
          · cases hex
            omega
          · cases hex
    rw [CodePoint.isDigitForm, if_pos (CodePoint.isAscii_of_hexValue? hex), decimal]

/-- Within ASCII only the digits of the base count. -/
theorem anyDigit?_of_isAscii {base : Nat} {c : CodePoint} (ascii : c.isAscii = true) :
    anyDigit? base c = digit? base c := by
  have decimal : c.hexValue? = none → c.decimalValue? = none := by
    intro noHex
    have noDigit : c.isAsciiDigit = false := by
      by_contra digit
      simp only [Bool.not_eq_false, CodePoint.isAsciiDigit, Bool.and_eq_true,
        decide_eq_true_eq] at digit
      simp [CodePoint.hexValue?, digit] at noHex
    simp [CodePoint.decimalValue?, ascii, noDigit]
  unfold anyDigit? digit?
  cases value : c.hexValue? with
  | some d => rfl
  | none => rw [Option.none_or, decimal value]

theorem anyDigit?_separator (base : Nat) : anyDigit? base '_' = none := by
  have apart : CodePoint.hexValue? '_' = none ∧ CodePoint.decimalValue? '_' = none := by decide
  rw [anyDigit?, apart.1, apart.2]
  rfl

/-! ## The ASCII form of a text -/

/-- How a code point of a text is seen when the text is read: its digit, and whether it is a
separator, a sign or a blank, stay the same. -/
structure Seen (p : CodePoint → CodePoint) (c : CodePoint) : Prop where
  digit : ∀ base, 10 ≤ base → digit? base (p c) = anyDigit? base c
  separator : p c = '_' ↔ c = '_'
  sign : p c = '-' ∨ p c = '+' → p c = c
  blank : (p c).isAsciiBlank = true → c.isBlank = true
  ascii : c.val < 127 → p c = c

theorem isBlank_of_isAsciiBlank {c : CodePoint} (blank : c.isAsciiBlank = true) :
    c.isBlank = true := by
  have range : c.val = 32 ∨ 9 ≤ c.val ∧ c.val ≤ 13 := by
    rcases Bool.or_eq_true_iff.mp blank with space | control
    · exact .inl (congrArg Fin.val (of_decide_eq_true space))
    · exact .inr (by simpa using control)
  rcases range with space | control
  · exact List.any_eq_true.mpr ⟨(28, 32), by simp, by simp [space]⟩
  · exact List.any_eq_true.mpr ⟨(9, 13), by simp, by simpa using control⟩

/-- A text within ASCII is seen as it is. -/
theorem seen_id {c : CodePoint} (ascii : c.isAscii = true) : Seen id c where
  digit _ _ := (anyDigit?_of_isAscii ascii).symm
  separator := Iff.rfl
  sign _ := rfl
  blank := isBlank_of_isAsciiBlank
  ascii _ := rfl

theorem hexValue?_of_large {c : CodePoint} (large : ¬ c.val < 127) : c.hexValue? = none := by
  rw [CodePoint.hexValue?, if_neg (by omega), if_neg (by omega), if_neg (by omega)]

/-- A point beyond ASCII may be seen as another one that is neither a separator nor a sign. -/
theorem seen_of_same {p : CodePoint → CodePoint} {c d : CodePoint} (large : ¬ c.val < 127)
    (same : p c = d) (digit : ∀ base, 10 ≤ base → digit? base d = anyDigit? base c)
    (other : d ≠ '-' ∧ d ≠ '+' ∧ d ≠ '_') (blank : d.isAsciiBlank = true → c.isBlank = true) :
    Seen p c := by
  have notSeparator : c ≠ '_' := by
    rintro rfl
    exact large (by decide)
  refine ⟨by rwa [same], ?_, ?_, by rwa [same], fun low => absurd low large⟩
  · rw [same]
    exact iff_of_false other.2.2 notSeparator
  · rw [same]
    exact fun signed => (signed.elim other.1 other.2.1).elim

theorem seen_plainPoint (c : CodePoint) : Seen plainPoint c := by
  by_cases small : c.val < 127
  · have same : plainPoint c = c := by rw [plainPoint, if_pos small]
    have ascii : c.isAscii = true := by
      rw [CodePoint.isAscii, decide_eq_true_eq]
      omega
    have seen := seen_id ascii
    exact ⟨by rw [same]; exact seen.digit, by rw [same], fun _ => same,
      by rw [same]; exact seen.blank, fun _ => same⟩
  have noHex := hexValue?_of_large small
  -- a blank or another point without a value is seen as a point without a value
  have noDigit {d : CodePoint} (plain : d.hexValue? = none) (noDecimal : c.decimalValue? = none)
      (base : Nat) : digit? base d = anyDigit? base c := by
    rw [digit?, plain, anyDigit?, noHex, noDecimal]
    rfl
  cases blank : c.isBlank with
  | true =>
    have same : plainPoint c = ' ' := by rw [plainPoint, if_neg small, if_pos blank]
    have noDecimal := CodePoint.decimalValue?_of_isBlank blank
    exact seen_of_same small same (fun base _ => noDigit (by decide) noDecimal base) (by decide)
      fun _ => blank
  | false =>
    cases decimal : c.decimalValue? with
    | none =>
      have same : plainPoint c = '?' := by
        rw [plainPoint, if_neg small, if_neg (by simp [blank]), decimal]
      exact seen_of_same small same (fun base _ => noDigit (by decide) decimal base) (by decide)
        fun seen => absurd seen (by decide)
    | some d =>
      have same : plainPoint c = CodePoint.ofDigit d := by
        rw [plainPoint, if_neg small, if_neg (by simp [blank]), decimal]
      have low : d < 10 := CodePoint.decimalValue?_lt decimal
      obtain ⟨notBlank, other⟩ := CodePoint.ofDigit_plain (Nat.lt_trans low (by omega))
      refine seen_of_same small same (fun base ten => ?_) other fun seen =>
        absurd seen (by simp [notBlank])
      have value : digit? base (CodePoint.ofDigit d) = some d := digit?_eq_some_iff.mpr
        ⟨CodePoint.hexValue?_ofDigit (Nat.lt_trans low (by omega)), Nat.lt_of_lt_of_le low ten⟩
      rw [value, eq_comm, anyDigit?_eq_some_iff, noHex, decimal]
      exact ⟨rfl, Nat.lt_of_lt_of_le low ten⟩

/-- A text is seen point by point, whether its points beyond ASCII are rewritten or not. -/
theorem plain_eq_map (t : Text) : ∃ p, plain t = t.map p ∧ ∀ c ∈ t, Seen p c := by
  cases ascii : t.isAscii with
  | true => exact ⟨id, by rw [plain, if_pos ascii, List.map_id],
      fun c member => seen_id (List.all_eq_true.mp ascii c member)⟩
  | false =>
    exact ⟨plainPoint, by rw [plain, if_neg (by simp [ascii])], fun c _ => seen_plainPoint c⟩

/-! ## Runs of digits -/

/-- Digits with single separators between them, and their values. -/
inductive Grouped (base : Nat) : Text → List Nat → Prop
  | last {c : CodePoint} {d : Nat} : anyDigit? base c = some d → Grouped base [c] [d]
  | next {c : CodePoint} {d : Nat} {rest : Text} {ds : List Nat} : anyDigit? base c = some d →
      Grouped base rest ds → Grouped base (c :: rest) (d :: ds)
  | separated {c : CodePoint} {d : Nat} {rest : Text} {ds : List Nat} :
      anyDigit? base c = some d → Grouped base rest ds → Grouped base (c :: '_' :: rest) (d :: ds)

/-- What follows a digit: nothing, further digits, or a separator and further digits. -/
inductive Continued (base : Nat) : Text → List Nat → Prop
  | nil : Continued base [] []
  | digits {rest : Text} {ds : List Nat} : Grouped base rest ds → Continued base rest ds
  | separated {rest : Text} {ds : List Nat} : Grouped base rest ds →
      Continued base ('_' :: rest) ds

theorem grouped_cons_iff {base : Nat} {c : CodePoint} {rest : Text} {ds : List Nat} :
    Grouped base (c :: rest) ds ↔
      ∃ d more, anyDigit? base c = some d ∧ Continued base rest more ∧ ds = d :: more := by
  constructor
  · intro grouped
    cases grouped with
    | last digit => exact ⟨_, _, digit, .nil, rfl⟩
    | next digit more => exact ⟨_, _, digit, .digits more, rfl⟩
    | separated digit more => exact ⟨_, _, digit, .separated more, rfl⟩
  · rintro ⟨d, more, digit, continued, rfl⟩
    cases continued with
    | nil => exact .last digit
    | digits grouped => exact .next digit grouped
    | separated grouped => exact .separated digit grouped

theorem not_grouped_separator {base : Nat} {rest : Text} {ds : List Nat} :
    ¬ Grouped base ('_' :: rest) ds := by
  rw [grouped_cons_iff]
  rintro ⟨d, more, digit, -⟩
  cases digit.symm.trans (anyDigit?_separator base)

theorem continued_separator_iff {base : Nat} {rest : Text} {ds : List Nat} :
    Continued base ('_' :: rest) ds ↔ Grouped base rest ds := by
  refine ⟨fun continued => ?_, .separated⟩
  cases continued with
  | digits grouped => exact (not_grouped_separator grouped).elim
  | separated grouped => exact grouped

theorem continued_iff_of_ne {base : Nat} {c : CodePoint} (other : c ≠ '_') {rest : Text}
    {ds : List Nat} : Continued base (c :: rest) ds ↔ Grouped base (c :: rest) ds := by
  refine ⟨fun continued => ?_, .digits⟩
  cases continued with
  | digits grouped => exact grouped
  | separated grouped => exact (other rfl).elim

/-- Digits with nothing between them, and their values. -/
abbrev Digitwise (digit? : CodePoint → Option Nat) (t : Text) (ds : List Nat) : Prop :=
  List.Forall₂ (fun c d => digit? c = some d) t ds

/-- Where no separator stands, digits follow each other. -/
theorem continued_iff_digitwise {base : Nat} {t : Text} (solid : ∀ c ∈ t, c ≠ '_')
    {ds : List Nat} : Continued base t ds ↔ Digitwise (anyDigit? base) t ds := by
  induction t generalizing ds with
  | nil =>
    rw [Digitwise, List.forall₂_nil_left_iff]
    constructor
    · rintro (_ | ⟨⟨⟩⟩)
      rfl
    · rintro rfl
      exact .nil
  | cons c rest ih =>
    have there {more : List Nat} :
        Continued base rest more ↔ Digitwise (anyDigit? base) rest more :=
      ih fun d member => solid d (by simp [member])
    rw [continued_iff_of_ne (solid c (by simp)), grouped_cons_iff, Digitwise,
      List.forall₂_cons_left_iff]
    simp only [there]

theorem grouped_iff_digitwise {base : Nat} {t : Text} (solid : ∀ c ∈ t, c ≠ '_')
    {ds : List Nat} : Grouped base t ds ↔ t ≠ [] ∧ Digitwise (anyDigit? base) t ds := by
  cases t with
  | nil => exact iff_of_false (by rintro ⟨⟩) fun given => given.1 rfl
  | cons c rest =>
    rw [← continued_iff_of_ne (solid c (by simp)), continued_iff_digitwise solid]
    simp

/-- The ASCII digits of a base are neither separators nor beyond ASCII. -/
theorem Digitwise.plain {base : Nat} {t : Text} {ds : List Nat}
    (run : Digitwise (digit? base) t ds) : ∀ c ∈ t, c ≠ '_' ∧ c.isAscii = true := by
  induction run with
  | nil => simp
  | cons digit _ ih =>
    rw [List.forall_mem_cons]
    refine ⟨⟨?_, CodePoint.isAscii_of_hexValue? (digit?_eq_some_iff.mp digit).1⟩, ih⟩
    rintro rfl
    cases (anyDigit?_of_digit? digit).symm.trans (anyDigit?_separator base)

theorem Digitwise.solid {base : Nat} {t : Text} {ds : List Nat}
    (run : Digitwise (digit? base) t ds) : ∀ c ∈ t, c.isBlank = false := by
  induction run with
  | nil => simp
  | cons digit _ ih =>
    rw [List.forall_mem_cons]
    exact ⟨CodePoint.isBlank_of_hexValue? (digit?_eq_some_iff.mp digit).1, ih⟩

/-- Within ASCII the digits of all scripts are the ASCII digits. -/
theorem digitwise_iff_of_ascii {base : Nat} {t : Text} (ascii : ∀ c ∈ t, c.isAscii = true)
    {ds : List Nat} : Digitwise (anyDigit? base) t ds ↔ Digitwise (digit? base) t ds := by
  induction t generalizing ds with
  | nil => simp [Digitwise]
  | cons c rest ih =>
    have there {more : List Nat} :
        Digitwise (anyDigit? base) rest more ↔ Digitwise (digit? base) rest more :=
      ih fun d member => ascii d (by simp [member])
    unfold Digitwise at there ⊢
    simp only [List.forall₂_cons_left_iff, anyDigit?_of_isAscii (ascii c (by simp)), there]

/-- A text is read to its end as digits exactly if its digits are grouped. -/
theorem digitRun_map_iff {base : Nat} (ten : 10 ≤ base) {p : CodePoint → CodePoint} {t : Text}
    (seen : ∀ c ∈ t, Seen p c) (ds : List Nat) :
    (digitRun base true (t.map p) = some (ds, []) ↔ Grouped base t ds) ∧
      (digitRun base false (t.map p) = some (ds, []) ↔ Continued base t ds) := by
  induction t generalizing ds with
  | nil =>
    refine ⟨iff_of_false (by simp [digitRun]) (by rintro ⟨⟩), ⟨fun done => ?_, fun continued => ?_⟩⟩
    · cases done
      exact .nil
    · cases continued with
      | nil => rfl
      | digits grouped => cases grouped
  | cons c rest ih =>
    have there := ih fun d member => seen d (List.mem_cons_of_mem _ member)
    have here := seen c List.mem_cons_self
    rw [List.map_cons]
    cases digit : anyDigit? base c with
    | some d =>
      have digit' := (here.digit base ten).trans digit
      have run (fresh : Bool) : digitRun base fresh (p c :: rest.map p) = some (ds, []) ↔
          Grouped base (c :: rest) ds := by
        rw [grouped_cons_iff, digitRun, digit']
        constructor
        · intro done
          obtain ⟨⟨more, after⟩, further, same⟩ := Option.map_eq_some_iff.mp done
          cases same
          exact ⟨d, more, digit, (there more).2.mp further, rfl⟩
        · rintro ⟨d', more, digit'', continued, rfl⟩
          cases digit.symm.trans digit''
          rw [(there more).2.mpr continued]
          rfl
      have other : c ≠ '_' := by
        rintro rfl
        cases digit.symm.trans (anyDigit?_separator base)
      exact ⟨run true, (run false).trans (continued_iff_of_ne other).symm⟩
    | none =>
      have digit' := (here.digit base ten).trans digit
      have noGroup : ¬ Grouped base (c :: rest) ds := by
        rw [grouped_cons_iff]
        rintro ⟨d, more, digit'', -⟩
        cases digit.symm.trans digit''
      refine ⟨iff_of_false (by simp [digitRun, digit']) noGroup, ?_⟩
      rw [digitRun, digit']
      by_cases separator : c = '_'
      · subst separator
        simp only [here.separator.mpr rfl, if_true, Bool.false_eq_true, if_false]
        rw [(there ds).1, continued_separator_iff]
      · simp only [mt here.separator.mp separator, Bool.false_eq_true, if_false]
        exact iff_of_false (by simp) (mt (continued_iff_of_ne separator).mp noGroup)

/-- What is left behind the digits is the end of the text. -/
theorem digitRun_suffix {base : Nat} {t after : Text} {fresh : Bool} {ds : List Nat}
    (run : digitRun base fresh t = some (ds, after)) : after <:+ t := by
  induction t generalizing fresh ds with
  | nil =>
    cases fresh with
    | true => cases run
    | false =>
      cases run
      exact List.suffix_refl _
  | cons c rest ih =>
    unfold digitRun at run
    split at run
    · obtain ⟨⟨more, left⟩, further, same⟩ := Option.map_eq_some_iff.mp run
      cases same
      exact (ih further).trans (List.suffix_cons _ _)
    · split at run
      · cases run
      · split at run
        · exact (ih run).trans (List.suffix_cons _ _)
        · cases run
          exact List.suffix_refl _

/-! ## What is read -/

/-- Blanks that are left behind the digits would end the text. -/
theorem nothing_left {p : CodePoint → CodePoint} {t after : Text} (seen : ∀ c ∈ t, Seen p c)
    (last : ∀ c ∈ t.getLast?, c.isBlank = false) (suffix : after <:+ t.map p)
    (blanks : after.dropWhile CodePoint.isAsciiBlank = []) : after = [] := by
  rcases found : after.getLast? with _ | c
  · exact List.getLast?_eq_none_iff.mp found
  · obtain ⟨lead, same⟩ := suffix
    have theirs : (t.map p).getLast? = some c := by
      rw [← same, List.getLast?_append, found]
      rfl
    rw [List.getLast?_map] at theirs
    obtain ⟨d, ends, rfl⟩ := Option.map_eq_some_iff.mp theirs
    have blank := List.dropWhile_eq_nil_iff.mp blanks _ (List.mem_of_getLast? found)
    have seenBlank := (seen d (List.mem_of_getLast? ends)).blank blank
    rw [last d ends] at seenBlank
    cases seenBlank

/-- What stands behind the mark is read as the number of its digits, or the text is not read. -/
theorem read_eq_ok_iff {base : Nat} (ten : 10 ≤ base) {p : CodePoint → CodePoint}
    {t after body : Text} {n : Int} (seen : ∀ c ∈ body, Seen p c)
    (last : ∀ c ∈ body.getLast?, c.isBlank = false)
    (signed : sign ((plain t).dropWhile CodePoint.isAsciiBlank) = (false, after))
    (marked : afterBaseMark base after = body.map p) :
    read base t = .ok n ↔
      ∃ ds, Grouped base body ds ∧ (base = 10 → ds.length ≤ digitLimit) ∧
        n = Digits.value base ds := by
  unfold read
  rw [signed]
  simp only [marked]
  constructor
  · intro made
    split at made
    · cases made
    · rename_i ds left run
      split at made
      · cases made
      · rename_i short
        split at made
        · rename_i blanks
          obtain rfl := nothing_left seen last (digitRun_suffix run) (List.isEmpty_iff.mp blanks)
          cases made
          refine ⟨ds, (digitRun_map_iff ten seen ds).1.mp run, fun same => ?_, rfl⟩
          exact Nat.not_lt.mp fun long => short ⟨same, long⟩
        · cases made
  · rintro ⟨ds, grouped, short, rfl⟩
    have fits : ¬(base = 10 ∧ digitLimit < ds.length) :=
      fun given => Nat.not_lt.mpr (short given.1) given.2
    rw [(digitRun_map_iff ten seen ds).1.mpr grouped]
    simp only [if_neg fits, List.dropWhile_nil, List.isEmpty_nil, if_true, Bool.false_eq_true,
      if_false]

/-- A text that starts with neither a blank nor a sign is read from its start. -/
theorem sign_plain {p : CodePoint → CodePoint} {t : Text} (same : plain t = t.map p)
    (seen : ∀ c ∈ t, Seen p c)
    (first : ∀ c ∈ t.head?, c.isBlank = false ∧ c ≠ '-' ∧ c ≠ '+') :
    sign ((plain t).dropWhile CodePoint.isAsciiBlank) = (false, t.map p) := by
  rw [same]
  cases t with
  | nil => rfl
  | cons c rest =>
    obtain ⟨solid, notMinus, notPlus⟩ := first c rfl
    have here := seen c List.mem_cons_self
    have notBlank : (p c).isAsciiBlank = false := by
      by_contra blank
      rw [here.blank (by simpa using blank)] at solid
      cases solid
    have unsigned (mark : CodePoint) (other : c ≠ mark) (signs : p c = mark → p c = c) :
        p c ≠ mark := fun same => other ((signs same).symm.trans same)
    rw [List.map_cons, List.dropWhile_cons_of_neg (by simp [notBlank]), sign,
      if_neg (unsigned '-' notMinus fun same => here.sign (.inl same)),
      if_neg (unsigned '+' notPlus fun same => here.sign (.inr same))]

/-- A text without a blank around it and without a sign is read in base 10 exactly if its digits
are grouped and not too many. -/
theorem read_decimal_iff {t : Text} (bare : t.Bare) (unsigned : ∀ c ∈ t.head?, c ≠ '-' ∧ c ≠ '+')
    {n : Int} : read 10 t = .ok n ↔
      ∃ ds, Grouped 10 t ds ∧ ds.length ≤ digitLimit ∧ n = Digits.value 10 ds := by
  obtain ⟨p, same, seen⟩ := plain_eq_map t
  have signed := sign_plain same seen fun c first => ⟨bare.first c first, unsigned c first⟩
  rw [read_eq_ok_iff (Nat.le_refl 10) seen bare.last signed rfl]
  simp

/-- What is read behind the mark of base 16 starts behind a separator that sets it off. -/
theorem afterBaseMark_map {p : CodePoint → CodePoint} {x : CodePoint} (mark : x = 'x' ∨ x = 'X')
    {digits : Text} (seen : ∀ c ∈ digits, Seen p c) :
    ∃ body, body <:+ digits ∧ afterBaseMark 16 ('0' :: x :: digits.map p) = body.map p ∧
      ∀ ds, Grouped 16 body ds ↔ digits ≠ [] ∧ Continued 16 digits ds := by
  have after : Digits.afterMark? ('0' :: x :: digits.map p) = some (digits.map p) := by
    rcases mark with rfl | rfl <;> rfl
  rw [afterBaseMark, if_pos rfl, after]
  cases digits with
  | nil =>
    refine ⟨[], List.suffix_rfl, rfl, fun ds => iff_of_false ?_ fun given => given.1 rfl⟩
    rintro ⟨⟩
  | cons c rest =>
    have here := seen c List.mem_cons_self
    by_cases separator : c = '_'
    · subst separator
      refine ⟨rest, List.suffix_cons _ _, ?_, fun ds => by simp [continued_separator_iff]⟩
      rw [List.map_cons, here.separator.mpr rfl]
      rfl
    · have apart : CodePoint.ofChar '_' ≠ p c := fun same => separator (here.separator.mp same.symm)
      refine ⟨c :: rest, List.suffix_rfl, ?_, fun ds => by simp [continued_iff_of_ne separator]⟩
      simp only [List.map_cons, Text.after?, if_neg apart, Option.getD_none]

/-- Behind the mark of base 16 a text is read like the text behind a digit. -/
theorem read_marked_iff {x : CodePoint} {digits : Text} (mark : x = 'x' ∨ x = 'X')
    (last : ∀ c ∈ digits.getLast?, c.isBlank = false) {n : Int} :
    read 16 ('0' :: x :: digits) = .ok n ↔
      digits ≠ [] ∧ ∃ ds, Continued 16 digits ds ∧ n = Digits.value 16 ds := by
  obtain ⟨p, same, seen⟩ := plain_eq_map ('0' :: x :: digits)
  have zero : p '0' = '0' := (seen _ (by simp)).ascii (by decide)
  have letter : p x = x := (seen _ (by simp)).ascii (by rcases mark with rfl | rfl <;> decide)
  have seen' : ∀ c ∈ digits, Seen p c := fun c member => seen c (by simp [member])
  have signed := sign_plain same seen fun c first => by
    cases first
    decide
  rw [List.map_cons, List.map_cons, zero, letter] at signed
  obtain ⟨body, ⟨lead, rfl⟩, marked, grouped⟩ := afterBaseMark_map mark seen'
  have last' : ∀ c ∈ body.getLast?, c.isBlank = false := by
    intro c ends
    refine last c ?_
    rw [List.getLast?_append, Option.mem_def.mp ends]
    rfl
  rw [read_eq_ok_iff (by omega) (fun c member => seen' c (List.mem_append_right _ member)) last'
    signed marked]
  simp [grouped, and_assoc]

end Integer

end Paymaster

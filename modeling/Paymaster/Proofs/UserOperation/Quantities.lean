import Mathlib.Data.Nat.Digits.Defs
import Paymaster.Proofs.Number.Scripts
import Paymaster.Proofs.Text.LetterCase
import Paymaster.Proofs.UserOperation.Reading

/-!
# Texts of quantities

A text denotes a quantity by the ASCII digits behind `0x`, of which there may be none, or by
decimal ASCII digits (`Quantity.Denotes`). Such a text is read as the number it denotes, unless
it is a decimal text with too many digits. Beside them texts with separators or with the digits
of other scripts are read (`Quantity.Tolerated`), and no others (`Quantity.ofText_eq_ok_iff`).
So the strict forms rule a text, wherever it stands in an operation, exactly if it is neither read
beyond them nor refused for its length, or is out of range anyway (`UserOperation.ruled_iff`).
-/

namespace Paymaster

theorem Digits.value_eq_ofDigits (base : Nat) (ds : List Nat) :
    value base ds = Nat.ofDigits base ds.reverse := by
  rw [Nat.ofDigits_eq_foldr, List.foldr_reverse, value]
  simp only [Nat.cast_id, Nat.mul_comm, Nat.add_comm]

namespace Quantity

open Integer

/-! ## Grammars -/

/-- The number that a text denotes in the strict forms. -/
inductive Denotes : Text → Nat → Prop
  | hexadecimal {x : CodePoint} {digits : Text} {ds : List Nat} : (x = 'x' ∨ x = 'X') →
      Digitwise (digit? 16) digits ds → Denotes ('0' :: x :: digits) (Nat.ofDigits 16 ds.reverse)
  | decimal {digits : Text} {ds : List Nat} : digits ≠ [] →
      Digitwise (digit? 10) digits ds → Denotes digits (Nat.ofDigits 10 ds.reverse)

/-- The number as which a text is read. Behind the mark separators may stand in front of digits,
and all digits may be of any script. -/
inductive Tolerated : Text → Nat → Prop
  | hexadecimal {x : CodePoint} {digits : Text} {ds : List Nat} : (x = 'x' ∨ x = 'X') →
      Continued 16 digits ds → Tolerated ('0' :: x :: digits) (Digits.value 16 ds)
  | decimal {digits : Text} {ds : List Nat} : digits ≠ [] →
      Digitwise (anyDigit? 10) digits ds → ds.length ≤ digitLimit →
      Tolerated digits (Digits.value 10 ds)

/-- A mark is no decimal digit. -/
theorem not_digitwise_marked {x : CodePoint} (mark : x = 'x' ∨ x = 'X') {digits : Text}
    {ds : List Nat} : ¬ Digitwise (anyDigit? 10) ('0' :: x :: digits) ds := by
  have noDigit : anyDigit? 10 x = none := by rcases mark with rfl | rfl <;> decide
  rintro (_ | ⟨-, _ | ⟨digit, -⟩⟩)
  rw [noDigit] at digit
  cases digit

theorem tolerated_marked_iff {x : CodePoint} (mark : x = 'x' ∨ x = 'X') {digits : Text} {n : Nat} :
    Tolerated ('0' :: x :: digits) n ↔ ∃ ds, Continued 16 digits ds ∧ n = Digits.value 16 ds := by
  constructor
  · intro tolerated
    cases tolerated with
    | hexadecimal _ continued => exact ⟨_, continued, rfl⟩
    | decimal _ run _ => exact (not_digitwise_marked mark run).elim
  · rintro ⟨ds, continued, rfl⟩
    exact .hexadecimal mark continued

theorem tolerated_unmarked_iff {t : Text} (unmarked : Digits.afterMark? t = none) {n : Nat} :
    Tolerated t n ↔ ∃ ds, t ≠ [] ∧ Digitwise (anyDigit? 10) t ds ∧ ds.length ≤ digitLimit ∧
      n = Digits.value 10 ds := by
  constructor
  · intro tolerated
    cases tolerated with
    | hexadecimal mark _ =>
      rw [Digits.afterMark?_marked mark] at unmarked
      cases unmarked
    | decimal nonempty run short => exact ⟨_, nonempty, run, short, rfl⟩
  · rintro ⟨ds, nonempty, run, short, rfl⟩
    exact .decimal nonempty run short

/-! ## What is read -/

theorem isDigitForms_of_digitwise {t : Text} {ds : List Nat} (nonempty : t ≠ [])
    (run : Digitwise (anyDigit? 10) t ds) : t.isDigitForms = true := by
  have points : t.all CodePoint.isDigitForm = true := by
    clear nonempty
    induction run with
    | nil => rfl
    | cons digit _ ih => rw [List.all_cons, isDigitForm_of_anyDigit? digit, ih, Bool.and_self]
  rw [Text.isDigitForms, points, List.isEmpty_eq_false_iff.mpr nonempty]
  rfl

/-- A text of digit forms is read in base 10 exactly if each of them is a decimal digit. -/
theorem read_digitForms_iff {t : Text} (bare : t.Bare) (unmarked : Digits.afterMark? t = none)
    (forms : t.isDigitForms = true) {n : Int} :
    Integer.read 10 t = .ok n ↔ ∃ k : Nat, n = k ∧ Tolerated t k := by
  obtain ⟨-, points⟩ := Bool.and_eq_true_iff.mp forms
  have form : ∀ c ∈ t, c.isDigitForm = true := List.all_eq_true.mp points
  have other (mark : CodePoint) (noForm : mark.isDigitForm = false) : ∀ c ∈ t, c ≠ mark := by
    rintro c member rfl
    cases noForm.symm.trans (form c member)
  have solid := other '_' (by decide)
  have unsigned : ∀ c ∈ t.head?, c ≠ '-' ∧ c ≠ '+' := fun c first =>
    have member := List.mem_of_head? first
    ⟨other '-' (by decide) c member, other '+' (by decide) c member⟩
  rw [read_decimal_iff bare unsigned]
  simp only [grouped_iff_digitwise solid, tolerated_unmarked_iff unmarked]
  constructor
  · rintro ⟨ds, ⟨nonempty, run⟩, short, rfl⟩
    exact ⟨_, rfl, ds, nonempty, run, short, rfl⟩
  · rintro ⟨_, rfl, ds, nonempty, run, short, rfl⟩
    exact ⟨ds, ⟨nonempty, run⟩, short, rfl⟩

/-- A marked text is read in base 16, but a mark alone is zero. -/
theorem read_marked_or_zero_iff {x : CodePoint} (mark : x = 'x' ∨ x = 'X') {digits : Text}
    (last : ∀ c ∈ digits.getLast?, c.isBlank = false) {n : Int} :
    (if digits = [] then n = 0 else Integer.read 16 ('0' :: x :: digits) = .ok n) ↔
      ∃ k : Nat, n = k ∧ Tolerated ('0' :: x :: digits) k := by
  simp only [tolerated_marked_iff mark]
  split
  · rename_i empty
    subst empty
    constructor
    · rintro rfl
      exact ⟨0, rfl, [], .nil, rfl⟩
    · rintro ⟨_, rfl, ds, continued, rfl⟩
      cases continued with
      | nil => rfl
      | digits grouped => cases grouped
  · rename_i nonempty
    rw [read_marked_iff mark last]
    constructor
    · rintro ⟨-, ds, continued, rfl⟩
      exact ⟨_, rfl, ds, continued, rfl⟩
    · rintro ⟨_, rfl, ds, continued, rfl⟩
      exact ⟨nonempty, ds, continued, rfl⟩

/-- What is read of a text is said by the tolerated forms, blanks around it left aside. -/
theorem ofText_eq_ok_iff {t : Text} {n : Int} :
    ofText t = .ok n ↔ ∃ k : Nat, n = k ∧ Tolerated t.strip k := by
  have bare := Text.bare_strip t
  unfold ofText
  generalize t.strip = s at bare ⊢
  rcases marked : Digits.afterMark? s with _ | digits
  · simp only [marked, Option.isSome_none, Bool.false_eq_true, if_false]
    cases forms : s.isDigitForms with
    | true =>
      rw [if_pos rfl, UserOperation.mapError_eq_ok_iff, read_digitForms_iff bare marked forms]
    | false =>
      refine iff_of_false (by simp) ?_
      rintro ⟨k, -, tolerated⟩
      obtain ⟨ds, nonempty, run, -⟩ := (tolerated_unmarked_iff marked).mp tolerated
      cases forms.symm.trans (isDigitForms_of_digitwise nonempty run)
  · obtain ⟨x, mark, rfl⟩ := Digits.afterMark?_eq_some_iff.mp marked
    have last : ∀ c ∈ digits.getLast?, c.isBlank = false := by
      intro c ends
      refine bare.last c ?_
      rw [List.getLast?_cons, List.getLast?_cons, Option.mem_def.mp ends]
      rfl
    rw [← read_marked_or_zero_iff mark last]
    simp only [marked, Option.isSome_some, if_true]
    cases digits with
    | nil => simp [eq_comm]
    | cons c rest => simp [UserOperation.mapError_eq_ok_iff]

/-- A quantity is the integer of its value, below the bound. -/
theorem readQuantity_eq_ok_iff {value : Json} {n : Nat} :
    UserOperation.readQuantity value = .ok n ↔ integerOf value = .ok (n : Int) ∧ n < bound := by
  rw [UserOperation.readQuantity, UserOperation.mapError_eq_ok_iff, Quantity.read]
  constructor
  · intro made
    split at made
    · cases made
    · rename_i m given
      split at made
      · cases made
      · cases made
        rw [given]
        refine ⟨congrArg Except.ok ?_, ?_⟩ <;> omega
  · rintro ⟨given, small⟩
    have inside : ¬((n : Int) < 0 ∨ (bound : Int) ≤ n) := by omega
    rw [given]
    simp only [if_neg inside, Int.toNat_natCast]

/-- A quantity that is sent as a text is the number as which the text is read. -/
theorem readQuantity_text_iff {t : Text} {n : Nat} :
    UserOperation.readQuantity (.text t) = .ok n ↔ Tolerated t.strip n ∧ n < bound := by
  rw [readQuantity_eq_ok_iff, integerOf, ofText_eq_ok_iff]
  simp only [Nat.cast_inj, exists_eq_left']

/-! ## Strict texts -/

theorem Denotes.plain {t : Text} {n : Nat} (denotes : Denotes t n) :
    ∀ c ∈ t, c ≠ '_' ∧ c.isAscii = true := by
  cases denotes with
  | hexadecimal mark run =>
    rw [List.forall_mem_cons, List.forall_mem_cons]
    refine ⟨by decide, ?_, Digitwise.plain run⟩
    rcases mark with rfl | rfl <;> decide
  | decimal _ run => exact Digitwise.plain run

theorem Denotes.bare {t : Text} {n : Nat} (denotes : Denotes t n) : t.Bare := by
  apply Text.bare_of_solid
  cases denotes with
  | hexadecimal mark run =>
    rw [List.forall_mem_cons, List.forall_mem_cons]
    refine ⟨by decide, ?_, Digitwise.solid run⟩
    rcases mark with rfl | rfl <;> decide
  | decimal _ run => exact Digitwise.solid run

/-- What a text denotes is read, but for decimal texts with too many digits. -/
theorem Denotes.tolerated {t : Text} {n : Nat} (denotes : Denotes t n)
    (short : t.isMarked = false → t.length ≤ digitLimit) : Tolerated t n := by
  cases denotes with
  | hexadecimal mark run =>
    rw [← Digits.value_eq_ofDigits]
    refine .hexadecimal mark ((continued_iff_digitwise ?_).mpr ?_)
    · exact fun c member => (Digitwise.plain run c member).1
    · exact run.imp fun _ _ => anyDigit?_of_digit?
  | @decimal digits ds nonempty run =>
    have run' : Digitwise (anyDigit? 10) t ds := run.imp fun _ _ => anyDigit?_of_digit?
    have unmarked : t.isMarked = false := by
      by_contra marked
      obtain ⟨digits, marked⟩ := Option.isSome_iff_exists.mp (Bool.not_eq_false _ ▸ marked)
      obtain ⟨x, mark, rfl⟩ := Digits.afterMark?_eq_some_iff.mp marked
      exact not_digitwise_marked mark run'
    rw [← Digits.value_eq_ofDigits]
    exact .decimal nonempty run' (run.length_eq ▸ short unmarked)

/-- What is read of ASCII digits is what they denote. -/
theorem Tolerated.denotes {t : Text} {n : Nat} (tolerated : Tolerated t n)
    (plain : ∀ c ∈ t, c ≠ '_' ∧ c.isAscii = true) : Denotes t n := by
  cases tolerated with
  | @hexadecimal x digits ds mark continued =>
    have plain' : ∀ c ∈ digits, c ≠ '_' ∧ c.isAscii = true :=
      fun c member => plain c (by simp [member])
    have run := (continued_iff_digitwise fun c member => (plain' c member).1).mp continued
    rw [Digits.value_eq_ofDigits]
    exact .hexadecimal mark ((digitwise_iff_of_ascii fun c member => (plain' c member).2).mp run)
  | decimal nonempty run _ =>
    rw [Digits.value_eq_ofDigits]
    exact .decimal nonempty ((digitwise_iff_of_ascii fun c member => (plain c member).2).mp run)

theorem Tolerated.length_le {t : Text} {n : Nat} (tolerated : Tolerated t n)
    (unmarked : t.isMarked = false) : t.length ≤ digitLimit := by
  cases tolerated with
  | hexadecimal mark _ =>
    rw [Text.isMarked, Digits.afterMark?_marked mark] at unmarked
    cases unmarked
  | decimal _ run short => rwa [run.length_eq]

end Quantity

namespace UserOperation

open Quantity Integer

/-! ## Places -/

/-- The name under which a member of an object is looked up, or would be. -/
def Names.Decides (names : Names) (members : Entries Text Json) (location : Text) : Prop :=
  location = names.first ∨ location = names.second ∧ members.value? names.first = none

theorem Names.Decides.find?_put {names : Names} {members : Entries Text Json} {location : Text}
    (decides : names.Decides members location) (value : Json) :
    names.find? (members.put location value) = some (location, value) := by
  rcases decides with rfl | ⟨rfl, absent⟩
  · rw [find?, Entries.value?, Entries.lookup_put_self]
  · by_cases same : names.first = names.second
    · rw [find?, Entries.value?, same, Entries.lookup_put_self]
    · have absent' : List.lookup names.first members = none := absent
      rw [find?, Entries.value?, Entries.lookup_put_of_ne same, absent', Entries.value?,
        Entries.lookup_put_self]
      rfl

theorem Names.Decides.has {names : Names} {members : Entries Text Json} {location : Text}
    (decides : names.Decides members location) : names.Has location :=
  decides.imp_right And.left

/-- A quantity of an operation that is read is replaced by another one. -/
theorem read_put_quantity {place : QuantityMember} {members : Entries Text Json} {location : Text}
    {op : UserOperation} {value : Json} {n : Nat} (decides : place.names.Decides members location)
    (made : read (.object members) = .ok op) (given : readQuantity value = .ok n) :
    read (.object (members.put location value)) = .ok (op.withQuantity place n) := by
  have sent := read_object_iff.mp made
  have kept {names : Names} (apart : place.names.Apart names) : ¬ names.Has location :=
    apart.not_has decides.has
  refine read_object_iff.mpr ⟨?_, fun other => ?_, fun b => ?_⟩
  · rw [member_put_of_not_has (kept place.names_apart_sender), sender_withQuantity,
      senderText_withQuantity]
    exact sent.sender
  · by_cases same : other = place
    · subst same
      rw [member_of_find? (decides.find?_put value), quantity_withQuantity_self]
      exact given
    · rw [member_put_of_not_has (kept (QuantityMember.names_apart (Ne.symm same))),
        quantity_withQuantity_of_ne _ same]
      exact sent.quantity other
  · rw [member_put_of_not_has (kept (place.names_apart_bytes b)), byteString_withQuantity]
    exact sent.bytes b

/-- The strict forms rule a text: at any place of a quantity it is read as the number below the
bound that it denotes, and if it denotes none, the parameters are invalid. -/
structure Ruled (t : Text) : Prop where
  accepted : ∀ {place : QuantityMember} {members : Entries Text Json} {location : Text}
    {op : UserOperation} {n : Nat}, place.names.Decides members location →
      read (.object members) = .ok op → Denotes t.strip n → n < bound →
      read (.object (members.put location (.text t))) = .ok (op.withQuantity place n)
  refused : ∀ {place : QuantityMember} {members : Entries Text Json} {location : Text},
    place.names.find? members = some (location, .text t) →
      (∀ n, Denotes t.strip n → bound ≤ n) →
      ∃ reason, read (.object members) = .error (.because .invalidParams reason)

/-- The members of an operation with nothing but what is required. -/
def required (nonce : Text) : Entries Text Json :=
  [("sender", .text Address.zero.lower), ("nonce", .text nonce), ("callData", .text "0x"),
   ("maxFeePerGas", .int 0), ("maxPriorityFeePerGas", .int 0)]

theorem read_required {nonce : Text} {n : Nat} (given : readQuantity (.text nonce) = .ok n) :
    ∃ op, read (.object (required nonce)) = .ok op := by
  have recognized : Address.recognize? .any Address.zero.lower = some Address.zero := by
    rw [Address.recognize?_any]
    exact Address.ofText?_key Address.zero true
  let op : UserOperation :=
    { sender := .zero, nonce := n, callData := [], maxFeePerGas := 0, maxPriorityFeePerGas := 0 }
  refine ⟨op, read_object_iff.mpr ⟨?_, ?_, ?_⟩⟩
  · exact (member_of_find? rfl).mpr (readSender_eq_ok_iff.mpr ⟨⟨_, rfl, recognized⟩, rfl⟩)
  · rintro (_ | _ | _ | _ | _ | _)
    · exact (member_of_find? rfl).mpr given
    all_goals rfl
  · rintro (_ | _ | _ | _) <;> rfl

/-- A text that is ruled and is read although it has a separator or a code point beyond ASCII
is out of range. -/
theorem Ruled.le_of_tolerated {t : Text} (ruled : Ruled t) {n : Nat}
    (tolerated : Tolerated t.strip n) (foreign : ∃ c ∈ t.strip, c = '_' ∨ c.isAscii = false) :
    bound ≤ n := by
  by_contra small
  obtain ⟨op, made⟩ := read_required (readQuantity_text_iff.mpr ⟨tolerated, Nat.lt_of_not_le small⟩)
  have none (k : Nat) (denotes : Denotes t.strip k) : bound ≤ k := by
    obtain ⟨c, member, other⟩ := foreign
    obtain ⟨solid, ascii⟩ := denotes.plain c member
    rcases other with separator | beyond
    · exact (solid separator).elim
    · cases beyond.symm.trans ascii
  have found : QuantityMember.nonce.names.find? (required t)
      = some (Text.ofString "nonce", Json.text t) := rfl
  obtain ⟨reason, refused⟩ := ruled.refused found none
  rw [made] at refused
  cases refused

/-- A decimal text that is ruled and denotes a number with too many digits is out of range. -/
theorem Ruled.le_of_denotes {t : Text} (ruled : Ruled t) {n : Nat} (denotes : Denotes t.strip n)
    (unmarked : t.strip.isMarked = false) (long : digitLimit < t.strip.length) : bound ≤ n := by
  by_contra small
  have zero : readQuantity (.text "0") = .ok 0 := by decide
  obtain ⟨op, base⟩ := read_required zero
  have decides : QuantityMember.nonce.names.Decides (required "0") "nonce" := .inl rfl
  have made := ruled.accepted decides base denotes (Nat.lt_of_not_le small)
  have nonce := (read_object_iff.mp made).quantity .nonce
  rw [member_of_find? (decides.find?_put _), quantity_withQuantity_self,
    readQuantity_text_iff] at nonce
  exact Nat.not_lt.mpr (nonce.1.length_le unmarked) long

/-- The strict forms rule a text exactly if it is out of range whenever it is read beyond them, as
it has a separator or a digit of another script, or is not read for its decimal digits. -/
theorem ruled_iff (t : Text) :
    Ruled t ↔
      (∀ n, Tolerated t.strip n → (∃ c ∈ t.strip, c = '_' ∨ c.isAscii = false) → bound ≤ n) ∧
      (∀ n, Denotes t.strip n → t.strip.isMarked = false → digitLimit < t.strip.length →
        bound ≤ n) := by
  constructor
  · exact fun ruled => ⟨fun _ => ruled.le_of_tolerated, fun _ => ruled.le_of_denotes⟩
  · rintro ⟨foreign, long⟩
    refine ⟨fun decides made denotes small => ?_, fun found none => ?_⟩
    · refine read_put_quantity decides made (readQuantity_text_iff.mpr ⟨?_, small⟩)
      refine denotes.tolerated fun unmarked => ?_
      by_contra many
      exact Nat.not_le.mpr small (long _ denotes unmarked (Nat.lt_of_not_le many))
    · rename_i place members location
      refine (read_object_cases members).resolve_left ?_
      rintro ⟨op, made⟩
      have given := (read_object_iff.mp made).quantity place
      rw [member_of_find? found, readQuantity_text_iff] at given
      obtain ⟨tolerated, small⟩ := given
      by_cases plain : ∀ c ∈ t.strip, c ≠ '_' ∧ c.isAscii = true
      · exact Nat.not_le.mpr small (none _ (tolerated.denotes plain))
      · refine Nat.not_le.mpr small (foreign _ tolerated ?_)
        simpa only [not_forall, exists_prop, not_and_or, not_not, Bool.not_eq_true] using plain

/-- A separator among hexadecimal digits is read. -/
theorem not_ruled_separated : ¬ Ruled "0x1_0" := by
  intro ruled
  have strip : Text.strip "0x1_0" = Text.ofString "0x1_0" := by decide
  have tolerated : Tolerated "0x1_0" 16 :=
    .hexadecimal (.inl rfl) (.digits (.separated (d := 1) (by decide) (.last (d := 0) (by decide))))
  rw [← strip] at tolerated
  have small := ruled.le_of_tolerated tolerated ⟨'_', by decide, .inl rfl⟩
  exact absurd small (by decide)

end UserOperation

end Paymaster

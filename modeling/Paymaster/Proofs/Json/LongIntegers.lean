import Mathlib.Data.List.TakeDrop
import Mathlib.Data.List.TakeWhile
import Mathlib.Tactic.SplitIfs
import Paymaster.Json.Encoding
import Paymaster.Proofs.Text.Keys

/-!
# Integers that are too long

The reader has a fault of its own for integers of too many digits. Every reader leaves an end
of the text it was given, and stops with that fault only if its text has a run of that many
digits (`Json.Reads`). For values, items and members this goes by induction on the fuel
(`Json.reads_values`), and it gives: a body whose text has no run of more digits than are
read is never refused for its integers (`Json.hasRun_of_integerTooLong`).
-/

namespace Paymaster.Json

/-! ## What a reader leaves -/

/-- A text in which a number of digits follow each other. -/
def HasRun (n : Nat) (t : Text) : Prop :=
  ∃ digits : Text, digits <:+: t ∧ (∀ c ∈ digits, c.isAsciiDigit = true) ∧ digits.length = n

theorem HasRun.mono {n : Nat} {t t' : Text} (run : HasRun n t) (part : t <:+: t') :
    HasRun n t' := by
  rcases run with ⟨digits, inside, all, length⟩
  exact ⟨digits, inside.trans part, all, length⟩

/-- A reader that leaves an end of its text, and finds an integer too long only where a run
of that many digits stands. -/
structure Reads {α : Type} (t : Text) (outcome : Except Fault (α × Text)) : Prop where
  rest : ∀ a after, outcome = .ok (a, after) → after <:+ t
  long : ∀ n, outcome = .error (.integerTooLong n) → Integer.digitLimit < n ∧ HasRun n t

variable {α β : Type} {t t' : Text}

theorem Reads.mono {outcome : Except Fault (α × Text)} (reads : Reads t outcome)
    (part : t <:+ t') : Reads t' outcome :=
  ⟨fun a after left => (reads.rest a after left).trans part,
    fun n fault => (reads.long n fault).imp id fun run => run.mono part.isInfix⟩

theorem Reads.malformed : Reads t (.error .malformed : Except Fault (α × Text)) :=
  ⟨by simp, by simp⟩

theorem Reads.ok {a : α} {after : Text} (left : after <:+ t) : Reads t (.ok (a, after)) := by
  refine ⟨fun b rest same => ?_, by simp⟩
  cases same
  exact left

/-- A reader that passes the fault of another one on. -/
theorem Reads.error {outcome : Except Fault (α × Text)} {fault : Fault}
    (reads : Reads t outcome) (got : outcome = .error fault) :
    Reads t (.error fault : Except Fault (β × Text)) := by
  refine ⟨by simp, fun n same => ?_⟩
  cases same
  exact reads.long n got

theorem skipGap_suffix (t : Text) : skipGap t <:+ t :=
  List.dropWhile_suffix _

/-! ## Strings -/

/-- What is left after one more piece. -/
theorem suffix_of_map (front : Text) {rest : Text} {piece : Piece} {found : List Piece × Text}
    (left : ∀ {found : List Piece × Text}, pieces rest = some found → found.2 <:+ rest)
    (read : ((pieces rest).map fun (ps, after) => (piece :: ps, after)) = some found) :
    found.2 <:+ front ++ rest := by
  obtain ⟨⟨ps, after⟩, further, rfl⟩ := Option.map_eq_some_iff.mp read
  exact (left further).trans (List.suffix_append front rest)

theorem pieces_suffix {t : Text} {found : List Piece × Text} (read : pieces t = some found) :
    found.2 <:+ t := by
  fun_induction pieces t generalizing found
  case case2 rest =>
    cases read
    exact List.suffix_cons _ rest
  case case5 p q r s rest n _ _ ih => exact suffix_of_map ['\\', 'u', p, q, r, s] ih read
  case case8 e rest _ _ _ _ ih => exact suffix_of_map ['\\', e] ih read
  case case10 c rest _ _ _ ih => exact suffix_of_map [c] ih read
  all_goals cases read

theorem readString_suffix {t read after : Text} (found : readString t = some (read, after)) :
    after <:+ t := by
  obtain ⟨⟨ps, left⟩, further, same⟩ := Option.map_eq_some_iff.mp found
  cases same
  exact pieces_suffix further

/-! ## Numbers -/

theorem digitSpan_suffix (t : Text) : (digitSpan t).2 <:+ t := by
  rw [digitSpan, List.span_eq_takeWhile_dropWhile]
  exact List.dropWhile_suffix _

theorem fraction?_suffix {t digits after : Text} (found : fraction? t = some (digits, after)) :
    after <:+ t := by
  cases t with
  | nil => cases found
  | cons c rest =>
    simp only [fraction?] at found
    split_ifs at found
    cases found
    exact (digitSpan_suffix rest).trans (List.suffix_cons c rest)

theorem sign_suffix (t : Text) : (Integer.sign t).2 <:+ t := by
  cases t with
  | nil => exact List.suffix_rfl
  | cons c rest =>
    simp only [Integer.sign]
    split_ifs
    · exact List.suffix_cons c rest
    · exact List.suffix_cons c rest
    · exact List.suffix_rfl

theorem exponent?_suffix {t after : Text} {e : Int} (found : exponent? t = some (e, after)) :
    after <:+ t := by
  cases t with
  | nil => cases found
  | cons c rest =>
    simp only [exponent?] at found
    split_ifs at found
    all_goals
      cases found
      exact ((digitSpan_suffix _).trans (sign_suffix rest)).trans (List.suffix_cons c rest)

/-- The digits before the point are a run at the front. -/
theorem wholeSpan_parts (t : Text) :
    (wholeSpan t).1 ++ (wholeSpan t).2 = t ∧ ∀ c ∈ (wholeSpan t).1, c.isAsciiDigit = true := by
  cases t with
  | nil => exact ⟨rfl, by simp [wholeSpan]⟩
  | cons c rest =>
    by_cases zero : c = '0'
    · subst zero
      simp only [wholeSpan, if_true]
      exact ⟨rfl, by simp; decide⟩
    · simp only [wholeSpan, zero, if_false, digitSpan, List.span_eq_takeWhile_dropWhile]
      exact ⟨List.takeWhile_append_dropWhile, fun d inside => List.mem_takeWhile_imp inside⟩

theorem reads_readNumber (negative : Bool) (t : Text) : Reads t (readNumber negative t) := by
  rcases wholeSpan_parts t with ⟨parts, all⟩
  have left : (wholeSpan t).2 <:+ t := ⟨_, parts⟩
  simp only [readNumber]
  split
  · exact .malformed
  split
  · rename_i digits rest fraction
    have rested := (fraction?_suffix fraction).trans left
    rcases exponent : exponent? rest with _ | ⟨e, after⟩
    · exact .ok rested
    · exact .ok ((exponent?_suffix exponent).trans rested)
  split
  · rename_i e rest exponent
    exact .ok ((exponent?_suffix exponent).trans left)
  split
  · rename_i long
    refine ⟨by simp, fun n same => ?_⟩
    cases same
    exact ⟨long, _, ⟨[], _, by simpa using parts⟩, all, rfl⟩
  · exact .ok left

theorem reads_readScalar (t : Text) : Reads t (readScalar t) := by
  simp only [readScalar]
  split
  · rename_i found word
    obtain ⟨⟨w, value⟩, _, given⟩ := List.exists_of_findSome?_eq_some word
    obtain ⟨after, follows, rfl⟩ := Option.map_eq_some_iff.mp given
    exact .ok ⟨w, (Text.eq_append_of_after? follows).symm⟩
  · cases t with
    | nil => exact .malformed
    | cons c rest =>
      simp only
      split_ifs
      · exact (reads_readNumber true rest).mono (List.suffix_cons c rest)
      · exact reads_readNumber false (c :: rest)

/-! ## Values -/

/-- The readers of one fuel, as the next fuel uses them. -/
structure ReadsWith (fuel : Nat) : Prop where
  value : ∀ t, Reads t (readValue fuel t)
  items : ∀ t, Reads t (readItems fuel t)
  members : ∀ found t, Reads t (readMembers fuel found t)

variable {fuel : Nat}

theorem skipGap_cons {t after : Text} {c : CodePoint} (gap : skipGap t = c :: after) :
    c :: after <:+ t :=
  gap ▸ skipGap_suffix t

theorem reads_readValue (readers : ReadsWith fuel) (t : Text) :
    Reads t (readValue (fuel + 1) t) := by
  cases t with
  | nil => exact .malformed
  | cons c rest =>
    have inside : rest <:+ c :: rest := List.suffix_cons c rest
    simp only [readValue]
    split_ifs with quote bracket brace
    · rcases got : readString rest with _ | ⟨text, after⟩
      · exact .malformed
      · exact .ok ((readString_suffix got).trans inside)
    · rcases gap : skipGap rest with _ | ⟨d, after⟩
      · exact .malformed
      have left := (skipGap_cons gap).trans inside
      simp only
      split_ifs
      · exact .ok ((List.suffix_cons d after).trans left)
      · have reads := (readers.items (d :: after)).mono left
        rcases got : readItems fuel (d :: after) with fault | ⟨items, after⟩
        · exact reads.error got
        · exact .ok (reads.rest _ _ got)
    · rcases gap : skipGap rest with _ | ⟨d, after⟩
      · exact .malformed
      have left := (skipGap_cons gap).trans inside
      simp only
      split_ifs
      · exact .ok ((List.suffix_cons d after).trans left)
      · have reads := (readers.members [] (d :: after)).mono left
        rcases got : readMembers fuel [] (d :: after) with fault | ⟨members, after⟩
        · exact reads.error got
        · exact .ok (reads.rest _ _ got)
    · exact reads_readScalar (c :: rest)

theorem reads_readItems (readers : ReadsWith fuel) (t : Text) :
    Reads t (readItems (fuel + 1) t) := by
  simp only [readItems]
  rcases got : readValue fuel t with fault | ⟨item, after⟩
  · exact (readers.value t).error got
  have left : after <:+ t := (readers.value t).rest _ _ got
  rcases gap : skipGap after with _ | ⟨c, rest⟩
  · simp only [gap]
    exact .malformed
  have further : rest <:+ t := ((List.suffix_cons c rest).trans (skipGap_cons gap)).trans left
  simp only [gap]
  split_ifs
  · exact .ok further
  · have reads := (readers.items (skipGap rest)).mono ((skipGap_suffix rest).trans further)
    rcases got : readItems fuel (skipGap rest) with fault | ⟨items, after⟩
    · exact reads.error got
    · exact .ok (reads.rest _ _ got)
  · exact .malformed

theorem reads_readMembers (readers : ReadsWith fuel) (found : Entries Text Json) (t : Text) :
    Reads t (readMembers (fuel + 1) found t) := by
  cases t with
  | nil => exact .malformed
  | cons c rest =>
    simp only [readMembers]
    split_ifs
    · rcases name : readString rest with _ | ⟨name, after⟩
      · exact .malformed
      have named : after <:+ c :: rest := (readString_suffix name).trans (List.suffix_cons c rest)
      rcases gap : skipGap after with _ | ⟨d, rest⟩
      · simp only [gap]
        exact .malformed
      have parted := ((List.suffix_cons d rest).trans (skipGap_cons gap)).trans named
      simp only [gap]
      split_ifs
      · have reads := (readers.value (skipGap rest)).mono ((skipGap_suffix rest).trans parted)
        rcases got : readValue fuel (skipGap rest) with fault | ⟨value, after⟩
        · exact reads.error got
        have valued : after <:+ _ := reads.rest _ _ got
        rcases gap : skipGap after with _ | ⟨d, rest⟩
        · simp only [gap]
          exact .malformed
        have ended := ((List.suffix_cons d rest).trans (skipGap_cons gap)).trans valued
        simp only [gap]
        split_ifs
        · exact .ok ended
        · exact (readers.members _ _).mono ((skipGap_suffix rest).trans ended)
        · exact .malformed
      · exact .malformed
    · exact .malformed

/-- Each fuel reads with the readers of the one below. -/
theorem reads_values (fuel : Nat) : ReadsWith fuel := by
  induction fuel with
  | zero => exact ⟨fun t => .malformed, fun t => .malformed, fun found t => .malformed⟩
  | succ fuel readers =>
    exact ⟨reads_readValue readers, reads_readItems readers, reads_readMembers readers⟩

/-! ## Bodies -/

/-- A body is refused for an integer of too many digits only if its text has such a run. -/
theorem hasRun_of_integerTooLong {body : Bytes} {n : Nat}
    (refused : ofBytes body = .error (.integerTooLong n)) :
    Integer.digitLimit < n ∧ ∃ t, decode? body = some t ∧ HasRun n t := by
  rcases text : decode? body with _ | t
  · simp [ofBytes, text] at refused
  have reads := ((reads_values (2 * t.length + 2)).value (skipGap t)).mono (skipGap_suffix t)
  simp only [ofBytes, text, read] at refused
  rcases got : readValue (2 * t.length + 2) (skipGap t) with fault | ⟨value, after⟩
  · simp only [got, Except.error.injEq] at refused
    rw [refused] at got
    exact (reads.long n got).imp id fun run => ⟨t, rfl, run⟩
  · simp only [got] at refused
    split_ifs at refused
    cases refused

end Paymaster.Json

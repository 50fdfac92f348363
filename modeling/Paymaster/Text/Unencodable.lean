import Paymaster.Text.Quoted

/-!
# Code points without an encoding

An encoding may leave code points out: ASCII has no bytes for those from 128 on, UTF-8 none
for lone surrogates. A text that holds some is refused, and the refusal names the place of
the first run of them.
-/

namespace Paymaster

/-- The first run of code points that an encoding leaves out: its places, counted from
zero, and its first member. -/
structure Unencodable where
  first : Nat
  last : Nat
  point : CodePoint
  deriving DecidableEq, Repr

namespace Unencodable

/-- The first run in a text of code points without an encoding. -/
def find? (encodes : CodePoint → Bool) (t : Text) : Option Unencodable :=
  let clean := t.takeWhile encodes
  match t.drop clean.length with
  | [] => none
  | c :: rest =>
    let run := rest.takeWhile fun c => !encodes c
    some ⟨clean.length, clean.length + run.length, c⟩

/-- The wording of a refusal, with the name of the encoding and what it leaves out. -/
def message (encoding reason : Text) (run : Unencodable) : Text :=
  let place : Text :=
    if run.first = run.last then
      "character '" ++ run.point.escaped ++ "' in position " ++ Digits.decimal run.first
    else
      "characters in position " ++ Digits.decimal run.first ++ "-" ++ Digits.decimal run.last
  "'" ++ encoding ++ "' codec can't encode " ++ place ++ ": " ++ reason

/-- Nothing is found exactly in texts that have an encoding throughout. -/
theorem find?_eq_none_iff {encodes : CodePoint → Bool} {t : Text} :
    find? encodes t = none ↔ ∀ c ∈ t, encodes c = true := by
  induction t with
  | nil => simp [find?]
  | cons c cs ih =>
    by_cases h : encodes c
    · have shift : find? encodes (c :: cs) = none ↔ find? encodes cs = none := by
        simp only [find?, List.takeWhile_cons, h, if_true, List.length_cons, List.drop_succ_cons]
        split <;> simp
      simp [shift, ih, h]
    · simp [find?, h]

end Unencodable

end Paymaster

import Paymaster.Text.Ranges

/-!
# Lines of a text

A text that is printed is seen as lines. A line ends with a line feed, a carriage return or
both in this order, with another control that starts a line or a page, or with one of the
separators of Unicode. `Text.lines` takes a text apart; `Text.ofLines` ends every line with a
line feed. Taking such a text apart gives its lines back as long as no line holds an end
(`Text.lines_ofLines`).
-/

namespace Paymaster

def CodePoint.endsLine (c : CodePoint) : Bool :=
  inRanges [(10, 13), (28, 30), (0x85, 0x85), (0x2028, 0x2029)] c

namespace Text

/-- The lines of a text without their ends. What follows the last end is a line unless it
is empty. -/
def lines : Text → List Text
  | [] => []
  | c :: rest =>
    if c.endsLine then
      if c = '\r' ∧ rest.head? = some ('\n' : CodePoint) then lines rest else [] :: lines rest
    else
      match lines rest with
      | [] => [[c]]
      | line :: others => (c :: line) :: others

/-- Lines one below the other, each with a line feed at its end. -/
def ofLines (ls : List Text) : Text :=
  ls.flatMap (· ++ [('\n' : CodePoint)])

/-- A line without an end inside stands in front of the lines that follow its line feed. -/
theorem lines_append_feed (line rest : Text) (plain : ∀ c ∈ line, c.endsLine = false) :
    lines (line ++ ('\n' : CodePoint) :: rest) = line :: lines rest := by
  induction line with
  | nil => simp [lines, show CodePoint.endsLine '\n' = true by decide]
  | cons c cs ih =>
    simp [lines, plain c (by simp), ih fun d member => plain d (by simp [member])]

theorem lines_ofLines (ls : List Text) (plain : ∀ line ∈ ls, ∀ c ∈ line, c.endsLine = false) :
    lines (ofLines ls) = ls := by
  induction ls with
  | nil => rfl
  | cons line ls ih =>
    have unfolded : ofLines (line :: ls) = line ++ ('\n' : CodePoint) :: ofLines ls := by
      simp [ofLines]
    rw [unfolded, lines_append_feed line _ (plain line (by simp)),
      ih fun l member => plain l (by simp [member])]

end Text

end Paymaster

import Paymaster.Text.Tables.Cased
import Paymaster.Text.Tables.Lower

/-!
# Lower case

`Text.lower` writes a text in lower case for all scripts. Two rules look beyond a
single code point: U+0130 becomes two code points, and a capital sigma takes its
final form at the end of a word. Names and addresses are compared in lower case,
so `Text.lower` decides which of them are the same.
-/

namespace Paymaster

/-! ## One code point -/

/-- The lower-case form of an ASCII code point. -/
def CodePoint.asciiLower (c : CodePoint) : CodePoint :=
  if 65 ≤ c.val ∧ c.val ≤ 90 then CodePoint.ofNat (c.val + 32) else c

/-- The lower-case form of a code point, its neighbours left aside. -/
def CodePoint.lower (c : CodePoint) : Text :=
  if c.isAscii then [c.asciiLower]
  else if c = 0x130 then [0x69, 0x307]
  else
    match lowerRuns.find? fun (first, last, step, _) =>
        first ≤ c.val && c.val ≤ last && (c.val - first) % step == 0 with
    | some (_, _, _, distance) => [CodePoint.ofNat (c.val + distance).toNat]
    | none => [c]

/-- Letters with case that count as neighbours of a sigma. -/
def CodePoint.isCased (c : CodePoint) : Bool :=
  inRanges casedRanges c

/-- Marks and signs that do not count as neighbours of a sigma. -/
def CodePoint.isIgnorable (c : CodePoint) : Bool :=
  inRanges ignorableRanges c

/-! ## Texts -/

/-- The first code point that counts is a cased letter. -/
def Text.startsCased : Text → Bool
  | [] => false
  | c :: rest => if c.isIgnorable then Text.startsCased rest else c.isCased

/-- The lower-case form of a text that follows a cased letter or does not. -/
def Text.lowerAfter : Bool → Text → Text
  | _, [] => []
  | afterCased, c :: rest =>
    let form : Text :=
      if c = 0x3A3 then
        if afterCased && !Text.startsCased rest then [0x3C2] else [0x3C3]
      else c.lower
    let cased := if c.isIgnorable then afterCased else c.isCased
    form ++ Text.lowerAfter cased rest

def Text.lower (t : Text) : Text :=
  if t.all CodePoint.isAscii then t.map CodePoint.asciiLower else Text.lowerAfter false t

/-- A text within ASCII is lowered one code point at a time. -/
theorem Text.lower_of_ascii {t : Text} (h : t.all CodePoint.isAscii = true) :
    t.lower = t.map CodePoint.asciiLower := by
  simp [Text.lower, h]

end Paymaster

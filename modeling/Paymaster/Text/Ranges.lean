import Paymaster.Text.Basic

/-!
# Classes given by runs

A class of code points is a list of runs, each given by its first and last member.
-/

namespace Paymaster.CodePoint

def inRanges (runs : List (Nat × Nat)) (c : CodePoint) : Bool :=
  runs.any fun run => run.1 ≤ c.val && c.val ≤ run.2

/-- The run that holds a code point. -/
def rangeOf? (runs : List (Nat × Nat)) (c : CodePoint) : Option (Nat × Nat) :=
  runs.find? fun run => run.1 ≤ c.val && c.val ≤ run.2

end Paymaster.CodePoint

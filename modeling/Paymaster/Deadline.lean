import Paymaster.Json.Display

/-!
# Deadlines

How long a call may take, as it was configured: a number of seconds, or nothing for a call
without a limit. A call whose time is up before it begins is never made, and neither is one
whose deadline is no number or lies beyond every time of a clock that counts in doubles.
-/

namespace Paymaster

/-- The seconds that a call may take. -/
structure Deadline where
  seconds : Json
  deriving Repr

/-- What becomes of a call that is about to begin. -/
inductive Deadline.Verdict where
  | admitted
  /-- The time of the call is up. -/
  | expired
  /-- The deadline is no time of a clock. -/
  | unreadable
  deriving DecidableEq, Repr

namespace Deadline

/-- A deadline of seconds in decimal, `significand * 10 ^ exponent`. -/
def ofDecimal (significand : Nat) (exponent : Int) : Deadline :=
  ⟨.double (.ofDecimal false significand exponent)⟩

/-- What a deadline says of a call that is about to begin. -/
def verdict (d : Deadline) : Verdict :=
  match d.seconds with
  | .null => .admitted
  | .bool b => if b then .admitted else .expired
  | .int n =>
    if n ≤ 0 then .expired else if (Double.ofInt? n).isSome then .admitted else .unreadable
  | .double x => if x.isPositive then .admitted else .expired
  | _ => .unreadable

def text (d : Deadline) : Text :=
  d.seconds.display

/-- A deadline of whole seconds admits calls if it is positive and a double can tell it. -/
theorem verdict_int {n : Int} :
    verdict ⟨.int n⟩ = .admitted ↔ 0 < n ∧ (Double.ofInt? n).isSome := by
  simp only [verdict]
  split
  · simp; omega
  · split <;> simp_all

end Deadline

end Paymaster

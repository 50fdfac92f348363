import Paymaster.Text.Basic

/-!
# Problems of field values

A record that is built from outside values is checked field by field; every value that
does not fit is reported, in the order of the fields.
-/

namespace Paymaster

inductive Problem.Cause where
  | negative
  | notText
  deriving DecidableEq, Repr

def Problem.Cause.word : Problem.Cause → Text
  | .negative => "greater_than_equal"
  | .notText => "string_type"

def Problem.Cause.message : Problem.Cause → Text
  | .negative => "Input should be greater than or equal to 0"
  | .notText => "Input should be a valid string"

/-- A field whose value does not fit. -/
structure Problem where
  field : Text
  cause : Problem.Cause
  deriving DecidableEq, Repr

/-- The problem of a number that may not be negative. -/
def Problem.ofNegative (field : Text) (n : Int) : List Problem :=
  if n < 0 then [⟨field, .negative⟩] else []

end Paymaster

import Paymaster.Program.Action

/-!
# The gate

A caller is admitted by the key in the path, before anything of the chain is touched. An
unknown and a disabled key are refused in the same words.
-/

namespace Paymaster.Gate

def noKey : Failure :=
  .rpc { kind := .parse, message := "Key error", data := .text "No key" }

/-- The refusal while keys cannot be looked up. -/
def lookupFailed : Failure :=
  .rpc { kind := .parse, message := "Database error", data := .text "Query apikey error" }

def rejected : Failure :=
  .rpc { kind := .parse, message := "Key error", data := .text "Apikey error" }

def admission : Except StoreFault (Option ApiKey) → Except Failure ApiKey
  | .error _ => .error lookupFailed
  | .ok none => .error rejected
  | .ok (some row) => if row.enabled then .ok row else .error rejected

/-- The row of the key of a caller. -/
def authorize (key? : Option Text) : Action ApiKey :=
  match key? with
  | some (c :: rest) => do Action.ofExcept (admission (← Action.request (.findKey (c :: rest))))
  | _ => throw noKey

end Paymaster.Gate

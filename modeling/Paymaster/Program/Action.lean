import Paymaster.Failure
import Paymaster.Program.Basic

/-!
# Actions

Programs that may fail. An action that holds the lock of an address fails if the lock is
not given; once it is, the action ends as its body does.
-/

namespace Paymaster

/-- A program with a result or a failure. -/
abbrev Action (α : Type) : Type := ExceptT Failure Program α

namespace Action

variable {α : Type}

def request (r : Request) : Action r.Answer :=
  ExceptT.lift (Program.request r)

/-- Goes on with a value, or fails. -/
def ofExcept (e : Except Failure α) : Action α :=
  ExceptT.mk (pure e)

/-- The outcome of an action that ran while a lock was held. -/
def outcomeOfHold : Except LockFault (Except Failure α) → Except Failure α
  | .error fault => .error (.rpc fault.toError)
  | .ok outcome => outcome

/-- Runs an action while the lock of an address is held. -/
def hold (source : LockSource) (address : Text) (body : Action α) : Action α :=
  ExceptT.mk (outcomeOfHold <$> Program.hold source address body.run)

end Action

end Paymaster

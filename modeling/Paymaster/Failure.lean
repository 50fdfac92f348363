import Paymaster.Authorization
import Paymaster.Chain.Client
import Paymaster.Chain.Fault
import Paymaster.Chain.Mismatch
import Paymaster.Ledger.Fault
import Paymaster.Locks.Lease
import Paymaster.Rpc.Registry
import Paymaster.Tiers

/-!
# Failures of the service

Every way in which an operation of the service ends without a result. A coded error is
meant for the caller. The others are faults of the settings, of a collaborator or of a
value that does not fit; a caller of the endpoint sees their text.
-/

namespace Paymaster

inductive Failure where
  /-- An error that is meant for the caller. -/
  | rpc (e : RpcError)
  | tiers (fault : Tiers.Fault)
  | client (fault : ChainClient.Fault)
  | limits (problems : List Problem)
  | authorization (fault : Authorization.Fault)
  | address (fault : Address.Fault)
  | chain (fault : ChainFault)
  | store (fault : StoreFault)
  /-- A number does not fit its place in a call. -/
  | abiMismatch (call : Abi.HashCall)
  /-- A sum of a time and a period is no time. -/
  | time (fault : TimeFault)
  /-- The store cannot be opened. -/
  | unopened (message : Text)
  deriving Repr

namespace Failure

/-- A refusal of a kind without data. -/
def plain (kind : RpcError.Kind) : Failure :=
  .rpc (.plain kind)

/-- A refusal of a kind with a text as its data. -/
def because (kind : RpcError.Kind) (reason : Text) : Failure :=
  .rpc (.because kind reason)

/-- The wording of problems, one behind the other. -/
def problemsMessage (problems : List Problem) : Text :=
  Text.join "; " (problems.map fun p => p.field ++ ": " ++ p.cause.message)

def message : Failure → Text
  | .rpc e => e.message
  | .tiers .noText => "int() can't convert non-string with explicit base"
  | .tiers (.integer fault) => fault.message
  | .tiers (.problems problems) => problemsMessage problems
  | .client fault => fault.message
  | .limits problems => problemsMessage problems
  | .authorization fault => fault.message
  | .address fault => fault.message
  | .chain fault => fault.message
  | .store (.stale detail) => detail
  | .store .unreachable => StoreFault.unreachableMessage
  | .store (.unencodable run) => Utf8.surrogateMessage run
  | .store _ => []
  | .abiMismatch call => call.mismatch
  | .time fault => fault.message
  | .unopened message => message

/-- What a registered operation raises for a failure. -/
def thrown : Failure → Thrown
  | .rpc e => .coded e
  | failure => .uncoded failure.message

end Failure

end Paymaster

import Paymaster.Engine.Balance
import Paymaster.Engine.Grant
import Paymaster.Engine.Sponsor
import Paymaster.Rpc.Dispatcher

/-!
# The operations of the endpoint

The four operations of an engine under their names, with the shapes of their parameters.
A sponsorship and a grant are counted once they have succeeded; every call with a valid
envelope is counted with its outcome.
-/

namespace Paymaster.Methods

/-! ## Operations -/

/-- Charges and signs an operation, and counts the gas. -/
def sponsor (engine : Engine) (raw : Json) : Action Result := do
  let sponsorship ← engine.sponsor raw
  let () ← Action.request (.recordSponsorship sponsorship.gas)
  return sponsorship.result

/-- Grants an allowance, and counts the grant. -/
def requestGas (engine : Engine) (address : Json) : Action Result := do
  engine.requestGas address
  let () ← Action.request .recordGrant
  return .value (.bool true)

def gasRemain (engine : Engine) (address : Json) : Action Result := do
  return (← engine.balance (address.asText?.getD [])).result

def config (engine : Engine) : Action Result :=
  return Engine.tiersResult engine.tiers

def first (arguments : List Json) : Json :=
  arguments.headD .null

def handler (action : List Json → Action Result) (arguments : List Json) :
    Program (Except Thrown Result) :=
  (·.mapError Failure.thrown) <$> (action arguments).run

/-! ## The registry -/

/-- An operation with its name and shapes. -/
def method (name : Text) (shapes : List Shape) (action : List Json → Action Result) :
    Text × Method Program :=
  (name.lower, { name, shapes, handler := handler action })

def registry (engine : Engine) : Registry Program :=
  ⟨[method "pm_sponsorUserOperation" [.map, .text] fun a => sponsor engine (first a),
    method "pm_gasRemain" [.text] fun a => gasRemain engine (first a),
    method "pm_config" [] fun _ => config engine,
    method "pm_requestGas" [.text] fun a => requestGas engine (first a)]⟩

/-! ## Observation -/

def observe (name : Text) (response : Response) : Program (Except Text Unit) := do
  let code? := response.error?.map fun e => ErrorCode.int e.code
  let outcome ← Program.request (.recordCall name code?)
  return outcome.mapError TimeFault.message

def dispatcher (engine : Engine) : Dispatcher Program :=
  { registry := registry engine, observer? := some observe }

end Paymaster.Methods

import Paymaster.Chain.Signer
import Paymaster.Deadline
import Paymaster.Text.LowerCase

/-!
# The chain client

The client knows the contract of the paymaster, the token contract if there is one, the
key that signs, and how long a call may take. An empty token contract, or the zero address
in lower case, means that there are no tokens.
-/

namespace Paymaster

/-- What the service uses of the chain. -/
structure ChainClient where
  paymaster : Address
  vip : Option Address
  signer : Signer
  /-- How long a call may take. -/
  deadline : Deadline := .ofDecimal 10 0

/-- Why no client is made of its settings. -/
inductive ChainClient.Fault where
  | noKey
  | key (fault : Signer.Fault)
  | address (fault : Address.Fault)
  deriving DecidableEq, Repr

namespace ChainClient

def Fault.message : Fault → Text
  | .noKey => "PRIVATE_KEY not configured - paymaster cannot sign"
  | .key fault => fault.message
  | .address fault => fault.message

/-- The token contract that a setting names. -/
def tokenContract (setting : Text) : Except Address.Fault (Option Address) :=
  if setting.isEmpty ∨ setting.lower = Address.zero.lower then .ok none
  else (Address.read setting).map some

/-- The client of its settings: the key is read first, then the paymaster, then the token
contract. -/
def ofTexts (key paymaster vip : Text) : Except Fault ChainClient := do
  let signer ← (Signer.read key).mapError .key
  let paymaster ← (Address.read paymaster).mapError .address
  let vip ← (tokenContract vip).mapError .address
  return { paymaster, vip, signer }

/-- The client of its settings, the key among them if it is set and not empty. -/
def ofSettings (key : Option Text) (paymaster vip : Text) : Except Fault ChainClient :=
  match key with
  | some (c :: rest) => ofTexts (c :: rest) paymaster vip
  | _ => .error .noKey

end ChainClient

end Paymaster

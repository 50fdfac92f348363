import Paymaster.Chain.Abi
import Paymaster.Program.Action

/-!
# Calls of the chain client

The hash of an operation, the first token of an owner, and a signature. The client
fails if the node does not answer in time, if a call fails, or if an answer is not of
the type of its function. The node is not asked at all if the time of a call is up before
the call begins.
-/

namespace Paymaster.ChainClient

/-- The number in the first word of an answer. -/
def word? (answer : Bytes) : Option Nat :=
  if 32 ≤ answer.length then some (Bytes.toNat (answer.take 32)) else none

/-- What keeps the client from calling a function. -/
def checkDeadline (client : ChainClient) (function : Text) : Except Failure Unit :=
  match client.deadline.verdict with
  | .admitted => .ok ()
  | .expired => .error (.chain (.callTimedOut function client.deadline.text))
  | .unreadable => .error (.chain (.callFailed function))

/-- The first word of the answer of a function. -/
def callWord (client : ChainClient) (function : Text) (contract : Address) (data : Bytes) :
    Action Nat := do
  let () ← Action.ofExcept (client.checkDeadline function)
  match ← Action.request (.callContract contract data) with
  | .error .failed => throw (.chain (.callFailed function))
  | .error .timedOut => throw (.chain (.callTimedOut function client.deadline.text))
  | .ok answer =>
    match word? answer with
    | some n => return n
    | none => throw (.chain (.callFailed function))

/-- The hash that the contract expects to be signed for an operation. No call is made if a
number does not fit its place. -/
def operationHash (client : ChainClient) (op : UserOperation) (validUntil validAfter : Int) :
    Action Bytes := do
  let call : Abi.HashCall := { op, validUntil, validAfter }
  match call.data? with
  | none => throw (.abiMismatch call)
  | some data => return Bytes.word (← client.callWord "getHash" client.paymaster data)

/-- The first token of an owner, if there is a token contract. -/
def firstToken (client : ChainClient) (owner : Text) : Action (Option Nat) := do
  match client.vip with
  | none => return none
  | some contract =>
    match Address.read owner with
    | .error fault => throw (.address fault)
    | .ok owner =>
      return some (← client.callWord "tokenOfOwnerByIndex" contract (Abi.firstTokenCall owner))

def signHash (client : ChainClient) (hash : Bytes) : Action Signature := do
  match ← Action.request (.sign client.signer hash) with
  | some signature => return signature
  | none => throw (.chain .signingFailed)

def isConnected (client : ChainClient) : Program Bool :=
  match client.deadline.verdict with
  | .admitted => Program.request .pingNode
  | _ => return false

end Paymaster.ChainClient

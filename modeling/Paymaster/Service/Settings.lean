import Paymaster.Engine.Basic

/-!
# Settings

What a service is configured with, and how its parts are made of it. The tiers are read
first, then the chain client is made, then the limits; the first of them that fails is
the failure of the service. Every engine is made anew and asks for its locks.

The store is opened when the service starts, whether the database answers or not. It is not
opened if the database library refuses its address. The service starts all the same, and tries
again whenever a request needs the store.
-/

namespace Paymaster

structure Settings where
  name : Json := .text "VerifyingPaymaster"
  version : Json := .text "0.1.0"
  chainId : Json := .int 4689
  /-- The first allowance of an address; this and the next three are none if they were set
  to no text. -/
  createGas : Option Text := some "0"
  maxGas : Option Text := some "0"
  vipMaxGas : Option Text := some "0"
  vipContract : Option Text := some Address.zero.lower
  paymasterContract : Text := Address.zero.lower
  privateKey : Option Text := none
  chainDeadline : Deadline := .ofDecimal 10 0
  storeDeadline : Deadline := .ofDecimal 5 0
  preVerificationGas : Int := 52304
  verificationGasLimit : Int := 100000
  callGasLimit : Int := 33100
  /-- Where locks are kept: `redis` is the lock server, anything else the process. -/
  lockBackend : Text := "local"
  leaseTerms : Lease.Terms := {}
  /-- What the database library raises for the address of the store, if it refuses it. -/
  storeFault? : Option Text := none

namespace Settings

/-- Locks are kept at a lock server. -/
def usesLockServer (s : Settings) : Bool :=
  s.lockBackend = "redis"

/-- Opens the store. -/
def store (s : Settings) : Except Failure Unit :=
  match s.storeFault? with
  | some message => .error (.unopened message)
  | none => .ok ()

def tiers (s : Settings) : Except Failure Tiers :=
  (Tiers.ofSettings s.createGas s.maxGas s.vipMaxGas s.vipContract).mapError .tiers

def client (s : Settings) : Except Failure ChainClient :=
  match ChainClient.ofSettings s.privateKey s.paymasterContract (s.vipContract.getD []) with
  | .ok client => .ok { client with deadline := s.chainDeadline }
  | .error fault => .error (.client fault)

def limits (s : Settings) : Except Failure GasLimits :=
  (GasLimits.ofInts s.preVerificationGas s.verificationGasLimit s.callGasLimit).mapError .limits

def engine (s : Settings) : Action Engine := do
  let tiers ← Action.ofExcept s.tiers
  let client ← Action.ofExcept s.client
  let limits ← Action.ofExcept s.limits
  let locks ← Action.request .joinLocks
  return { tiers, client, limits, locks, storeDeadline := s.storeDeadline }

end Settings

end Paymaster

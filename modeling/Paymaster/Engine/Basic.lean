import Paymaster.Chain.Call
import Paymaster.GasLimits

/-!
# The engine

The engine grants allowances and sponsors operations against them. It is put together
from the tiers, the limits and the chain client, and uses the locks that it is given when
it is made. What it asks of the store is told apart by cause: a store that does not
answer in time, a save that lost against another writer, and any other failure. The store
is not asked at all if the time of a call is up before the call begins.
-/

namespace Paymaster

/-- The parts that operations of the service work with. -/
structure Engine where
  tiers : Tiers
  client : ChainClient
  limits : GasLimits
  locks : LockSource
  /-- How long a call of the store may take. -/
  storeDeadline : Deadline

namespace Engine

/-! ## The store -/

/-- The failure for a look-up that failed. -/
def lookupFailure : StoreFault → Failure
  | .timedOut => .because .internal "account store timeout"
  | _ => .plain .accountLookupFailed

/-- The failure for a save that failed. -/
def saveFailure : StoreFault → Failure
  | .timedOut => .because .internal "account store timeout"
  | .stale _ => .because .internal "concurrent account update"
  | _ => .plain .internal

/-- What keeps the engine from asking the store. -/
def checkDeadline (engine : Engine) : Except StoreFault Unit :=
  match engine.storeDeadline.verdict with
  | .admitted => .ok ()
  | .expired => .error .timedOut
  | .unreadable => .error .failed

def findAccount (engine : Engine) (address : Text) : Action (Option Account) := do
  let () ← Action.ofExcept (engine.checkDeadline.mapError lookupFailure)
  match ← Action.request (.findAccount address) with
  | .ok account => return account
  | .error fault => throw (lookupFailure fault)

/-- The account that was last granted through a token. -/
def findHolder (engine : Engine) (token : Int) : Action (Option Account) := do
  let () ← Action.ofExcept (engine.checkDeadline.mapError lookupFailure)
  match ← Action.request (.findHolder token) with
  | .ok account => return account
  | .error fault => throw (lookupFailure fault)

def saveAccount (engine : Engine) (account : Account) : Action Account := do
  let () ← Action.ofExcept (engine.checkDeadline.mapError saveFailure)
  match ← Action.request (.saveAccount account) with
  | .ok account => return account
  | .error fault => throw (saveFailure fault)

/-! ## The chain -/

/-- A failure of the chain taken for the absence of a token. -/
def tokenOrNone : Except Failure (Option Nat) → Except Failure (Option Nat)
  | .error (.chain _) => .ok none
  | outcome => outcome

/-- The token of an address; an owner that cannot be asked for has none. -/
def tokenOf (engine : Engine) (address : Text) : Action (Option Nat) :=
  ExceptT.mk (tokenOrNone <$> (engine.client.firstToken address).run)

/-- A failure of the chain after the charge, as the caller sees it. -/
def hideChainFault {α : Type} : Except Failure α → Except Failure α
  | .error (.chain _) => .error (.plain .internal)
  | outcome => outcome

/-- Runs an action that asks the chain. -/
def askChain {α : Type} (action : Action α) : Action α :=
  ExceptT.mk (hideChainFault <$> action.run)

end Engine

end Paymaster

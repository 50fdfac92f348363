import Paymaster.Access.Key
import Paymaster.Account
import Paymaster.CallStats
import Paymaster.Chain.Client
import Paymaster.Chain.Fault
import Paymaster.Ledger.Fault
import Paymaster.Locks.Lease

/-!
# Requests

Everything that the service asks of its surroundings: the store of accounts and keys, the
locks, the clock, the node, the signing key and the call statistics. Each request has its
own type of answer. Nothing else is shared between two runs of the service.
-/

namespace Paymaster

inductive LockSource where
  /-- The lock table of the process. -/
  | shared
  /-- A lock table of the engine's own, by its number. -/
  | own (serial : Nat)
  /-- A lock server. -/
  | server
  deriving DecidableEq, Repr

/-- The locks of a new engine within a process: the table of the process is taken over
while it has entries, and an empty one is replaced by a table of the engine's own. -/
def LockSource.ofTable (processTableIsEmpty : Bool) (serial : Nat) : LockSource :=
  if processTableIsEmpty then .own serial else .shared

inductive Request where
  | findAccount (address : Text)
  /-- The account that was last granted through a token. -/
  | findHolder (token : Int)
  /-- Saves an account on the condition of its version. -/
  | saveAccount (account : Account)
  | joinLocks
  /-- Waits for the lock of an address. -/
  | enterLock (source : LockSource) (address : Text)
  /-- Gives the lock of an address back. -/
  | leaveLock (source : LockSource) (address : Text)
  | clock
  /-- Calls a function of a contract without changing the chain. -/
  | callContract (contract : Address) (data : Bytes)
  | sign (signer : Signer) (message : Bytes)
  | findKey (key : Text)
  /-- Counts a call, with the code of its error if it failed. -/
  | recordCall (method : Text) (code? : Option ErrorCode)
  | recordSponsorship (gas : Int)
  | recordGrant
  | summarize
  | pingDatabase
  | pingNode
  /-- What keeps the lock server from answering, if anything does. -/
  | pingLockServer

def Request.Answer : Request → Type
  | .findAccount _ => Except StoreFault (Option Account)
  | .findHolder _ => Except StoreFault (Option Account)
  | .saveAccount _ => Except StoreFault Account
  | .joinLocks => LockSource
  | .enterLock _ _ => Except LockFault Unit
  | .leaveLock _ _ => Unit
  | .clock => Instant
  | .callContract _ _ => Except NodeFault Bytes
  | .sign _ _ => Option Signature
  | .findKey _ => Except StoreFault (Option ApiKey)
  | .recordCall _ _ => Except TimeFault Unit
  | .recordSponsorship _ => Unit
  | .recordGrant => Unit
  | .summarize => Except CallStats.Fault CallStats.Summary
  | .pingDatabase => Bool
  | .pingNode => Bool
  | .pingLockServer => Option Text

end Paymaster

import Paymaster.Ledger.Fault
import Paymaster.Locks.Lease

/-!
# Faults of the surroundings

What each part of the surroundings can be told to do wrong.
-/

namespace Paymaster

/-- What goes wrong with every call to a part of the store. -/
inductive StoreTrouble where
  | fails
  | stale
  | timesOut
  deriving DecidableEq, Repr

/-- The failure that a call then ends in. -/
def StoreTrouble.fault : StoreTrouble → StoreFault
  | .fails => .failed
  | .stale => .stale "injected"
  | .timesOut => .timedOut

/-- What goes wrong when an account is looked up. -/
inductive LookupTrouble where
  | store (trouble : StoreTrouble)
  /-- Another writer charges the account that was found. -/
  | bumps
  /-- Another writer creates the account that was not found. -/
  | creates
  /-- The table is gone afterwards. -/
  | drops
  deriving DecidableEq, Repr

/-- What goes wrong with every answer of a contract. -/
inductive NodeTrouble where
  | fails
  /-- The answer has no bytes. -/
  | empty
  /-- The answer is a byte short of a word. -/
  | short
  /-- Every bit of the answer is set. -/
  | ones
  | timesOut
  deriving DecidableEq, Repr

/-- Everything that is to go wrong. -/
structure Faults where
  lookup : Option LookupTrouble := none
  holder : Option StoreTrouble := none
  save : Option StoreTrouble := none
  hash : Option NodeTrouble := none
  ownership : Option NodeTrouble := none
  nodeAway : Bool := false
  lockServer : Lease.Conduct := .orderly
  /-- No connection to the database is given out. -/
  databaseDown : Bool := false
  deriving Repr

end Paymaster

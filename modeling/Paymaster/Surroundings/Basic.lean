import Paymaster.Chain.Abi
import Paymaster.Ledger.Table
import Paymaster.Program.Basic
import Paymaster.Surroundings.Faults

/-!
# Surroundings in memory

A store, a clock, a node, a lock server and call statistics, all in memory, of which every
part can be told to do something wrong. `Surroundings.answer` answers one request;
`Surroundings.run` runs a program alone. The node answers a question for a token from a
table of owners, and any other question with the digest of its data.
-/

namespace Paymaster

/-- A question to the node. -/
structure ContractCall where
  contract : Address
  data : Bytes
  deriving DecidableEq

structure Surroundings where
  /-- The accounts table; none if it is gone. -/
  accounts : Option AccountTable := some []
  keys : KeyTable := []
  databaseBroken : Bool := false
  clock : Instant
  /-- The first token of each owner, by the lower-case form of its address. -/
  tokens : Entries Text Int := []
  faults : Faults := {}
  canSign : Bool := true
  usesLockServer : Bool := false
  leaseTerms : Lease.Terms := {}
  /-- What the lock server saw, in order. -/
  leases : List Lease.Event := []
  stats : CallStats := {}
  /-- The questions that the node was asked, in order. -/
  calls : List ContractCall := []
  /-- How many engines were made. -/
  engines : Nat := 0

namespace Surroundings

/-! ## The store -/

/-- The accounts table, if it can be read. -/
def table? (s : Surroundings) : Option AccountTable :=
  if s.databaseBroken then none else s.accounts

/-- The accounts table, or why it cannot be read within a connection. -/
def readTable (s : Surroundings) : Except StoreFault AccountTable :=
  if s.faults.databaseDown then .error .failed
  else
    match s.table? with
    | some t => .ok t
    | none => .error .failed

/-- Another writer saves an account, or fails to. -/
def otherWriter (s : Surroundings) (account : Account) : Except StoreFault Surroundings :=
  match s.table? with
  | none => .error .failed
  | some t => (t.save account).map fun (t, _) => { s with accounts := some t }

/-- What happens after an account was looked up. -/
def afterLookup (s : Surroundings) (address : Text) (found : Option Account) :
    Except StoreFault Surroundings :=
  match s.faults.lookup, found with
  | some .bumps, some account => s.otherWriter { account with usedGas := account.usedGas + 1 }
  | some .creates, none => s.otherWriter { address := address.lower, remainingGas := 7 }
  | some .drops, _ => .ok { s with accounts := none }
  | _, _ => .ok s

/-- Looks up an account. The look-up ends only after what happens behind it, and fails with
it. -/
def findAccount (s : Surroundings) (address : Text) :
    Except StoreFault (Option Account) × Surroundings :=
  match s.faults.lookup with
  | some (.store trouble) => (.error trouble.fault, s)
  | _ =>
    match s.readTable with
    | .error fault => (.error fault, s)
    | .ok t =>
      match t.findByAddress address with
      | .error fault => (.error fault, s)
      | .ok found =>
        match s.afterLookup address found with
        | .error fault => (.error fault, s)
        | .ok after => (.ok found, after)

/-- Looks up the account that was last granted through a token. -/
def findHolder (s : Surroundings) (token : Int) : Except StoreFault (Option Account) :=
  match s.faults.holder with
  | some trouble => .error trouble.fault
  | none =>
    match s.readTable with
    | .error fault => .error fault
    | .ok t => t.findByToken token

/-- Saves an account on the condition of its version. -/
def saveAccount (s : Surroundings) (account : Account) :
    Except StoreFault Account × Surroundings :=
  match s.faults.save with
  | some trouble => (.error trouble.fault, s)
  | none =>
    if s.faults.databaseDown then (.error .unreachable, s)
    else
      match s.table? with
      | none => (.error .failed, s)
      | some t =>
        match t.save account with
        | .error fault => (.error fault, s)
        | .ok (t, account) => (.ok account, { s with accounts := some t })

/-- A fault of the table of keys as a failure of the store. -/
def keyFault : KeyTable.Fault → StoreFault
  | .taken => .duplicate
  | .unencodable run => .unencodable run
  | .noText => .failed

def findKey (s : Surroundings) (key : Text) : Except StoreFault (Option ApiKey) :=
  if s.faults.databaseDown then .error .unreachable
  else if s.databaseBroken then .error .failed
  else (s.keys.lookUp key).mapError keyFault

def addKey (s : Surroundings) (row : ApiKey) : Except StoreFault Unit × Surroundings :=
  if s.faults.databaseDown then (.error .unreachable, s)
  else if s.databaseBroken then (.error .failed, s)
  else
    match s.keys.insert row with
    | .error fault => (.error (keyFault fault), s)
    | .ok keys => (.ok (), { s with keys })

/-! ## The clock -/

def advance (s : Surroundings) (micros : Int) : Except TimeFault Surroundings :=
  (s.clock.shift micros).map fun clock => { s with clock }

def setClock (s : Surroundings) (micros : Int) : Except TimeFault Surroundings :=
  (Instant.ofMicros micros).map fun clock => { s with clock }

/-! ## The node -/

/-- An answer of the node in the way it is told to. -/
def NodeTrouble.answer : NodeTrouble → Except NodeFault Bytes
  | .fails => .error .failed
  | .empty => .ok []
  | .short => .ok (Bytes.zeros 31)
  | .ones => .ok (List.replicate 32 255)
  | .timesOut => .error .timedOut

/-- The answer to a question for the first token of an owner; a token that is no word cannot
be told. -/
def tokenAnswer (s : Surroundings) (data : Bytes) : Except NodeFault Bytes :=
  match s.tokens.lookup (Hex.ofBytes ((data.drop 16).take 20)) with
  | some (.ofNat token) => if token < Nat.pow 2 256 then .ok (Bytes.word token) else .error .failed
  | _ => .error .failed

/-- The answer of the node to a question. -/
def nodeAnswer (s : Surroundings) (data : Bytes) : Except NodeFault Bytes :=
  if data.take 4 = Abi.selector Abi.tokenSignature then
    match s.faults.ownership with
    | some trouble => NodeTrouble.answer trouble
    | none => s.tokenAnswer data
  else
    match s.faults.hash with
    | some trouble => NodeTrouble.answer trouble
    | none => .ok (Keccak.hash data)

/-! ## Locks -/

/-- Asks for the lock of an address. A program that runs alone never waits within a
process. -/
def enterLock (s : Surroundings) (source : LockSource) (address : Text) :
    Except LockFault Unit × Surroundings :=
  match source with
  | .server =>
    let (events, outcome) := s.faults.lockServer.enter s.leaseTerms address
    (outcome, { s with leases := s.leases ++ events })
  | _ => (.ok (), s)

/-- Gives the lock of an address back. -/
def leaveLock (s : Surroundings) (source : LockSource) : Surroundings :=
  match source with
  | .server => { s with leases := s.leases ++ [.release] }
  | _ => s

/-- The locks of a new engine. A program that runs alone finds the table of the process
empty. -/
def joinLocks (s : Surroundings) : LockSource × Surroundings :=
  let source := if s.usesLockServer then .server else .ofTable true s.engines
  (source, { s with engines := s.engines + 1 })

/-- What keeps the lock server from answering. -/
def lockServerTrouble (s : Surroundings) : Option Text :=
  if s.faults.lockServer = .silent then some "redis down" else none

/-! ## Requests -/

def answer : (r : Request) → Surroundings → r.Answer × Surroundings
  | .findAccount address, s => s.findAccount address
  | .findHolder token, s => (s.findHolder token, s)
  | .saveAccount account, s => s.saveAccount account
  | .joinLocks, s => s.joinLocks
  | .enterLock source address, s => s.enterLock source address
  | .leaveLock source _, s => ((), s.leaveLock source)
  | .clock, s => (s.clock, s)
  | .callContract contract data, s =>
    (s.nodeAnswer data, { s with calls := s.calls ++ [⟨contract, data⟩] })
  | .sign signer message, s =>
    (if s.canSign then some (signer.sign message) else none, s)
  | .findKey key, s => (s.findKey key, s)
  | .recordCall method code?, s =>
    let (stats, done) := s.stats.recordCall s.clock method code?
    (done, { s with stats })
  | .recordSponsorship gas, s => ((), { s with stats := s.stats.recordSponsorship gas })
  | .recordGrant, s => ((), { s with stats := s.stats.recordGrant })
  | .summarize, s =>
    let (stats, summary) := s.stats.summarize s.clock
    (summary, { s with stats })
  | .pingDatabase, s => (!s.databaseBroken, s)
  | .pingNode, s => (!s.faults.nodeAway, s)
  | .pingLockServer, s => (s.lockServerTrouble, s)

def run {α : Type} (s : Surroundings) (p : Program α) : α × Surroundings :=
  p.run answer s

end Surroundings

end Paymaster

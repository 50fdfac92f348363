import Paymaster.Locks.Process
import Paymaster.Surroundings.Basic

/-!
# Programs that run together

Several programs share the surroundings and take turns. A turn answers what costs no time and
then the first request that does; a program that waits for a lock within the process lets its
turn pass. The lock server in memory lets everybody in, as one does whose leases have run
out, so programs that lock there meet between any two of their turns.

`Company.follow` runs programs by a schedule, which names the program of every turn.
`Surroundings.runTogether` goes round: in every round each program has one turn.
-/

namespace Paymaster

/-- Requests that cost time. Any other is answered within the turn of the program. -/
def Request.costsTime : Request → Bool
  | .findAccount _ | .findHolder _ | .saveAccount _ | .callContract _ _ | .findKey _ => true
  | .pingDatabase | .pingNode | .pingLockServer => true
  | _ => false

/-- What programs that run together share. -/
structure Commons where
  surroundings : Surroundings
  locks : ProcessLocks := {}

namespace Commons

def joinLocks (c : Commons) : LockSource × Commons :=
  if c.surroundings.usesLockServer then
    let (source, s) := c.surroundings.joinLocks
    (source, { c with surroundings := s })
  else
    let (source, locks) := c.locks.join
    (source, { c with locks })

/-- Answers a request of a program, if the program need not wait for a lock. -/
def answer? (task : Nat) : (r : Request) → Commons → Option r.Answer × Commons
  | .joinLocks, c =>
    let (source, c) := c.joinLocks
    (some source, c)
  | .enterLock .server address, c =>
    let (answer, s) := c.surroundings.enterLock .server address
    (some answer, { c with surroundings := s })
  | .enterLock source address, c =>
    let (inside, locks) := c.locks.enter source task address
    (if inside then some (.ok ()) else none, { c with locks })
  | .leaveLock .server _, c =>
    (some (), { c with surroundings := c.surroundings.leaveLock .server })
  | .leaveLock source _, c => (some (), { c with locks := c.locks.leave source task })
  | r, c =>
    let (answer, s) := Surroundings.answer r c.surroundings
    (some answer, { c with surroundings := s })

end Commons

namespace Program

variable {α : Type}

/-- The turn of a program: it goes on up to and with the first request that costs time, or
until it has to wait. -/
def turn (task : Nat) : Program α → Commons → Program α × Commons
  | .done a, c => (.done a, c)
  | .ask r next, c =>
    match Commons.answer? task r c with
    | (none, c) => (.ask r next, c)
    | (some answer, c) => if r.costsTime then (next answer, c) else (next answer).turn task c

end Program

/-- Programs under way. -/
structure Company (α : Type) where
  programs : List (Program α)
  commons : Commons

namespace Company

variable {α : Type}

/-- The turn of one of the programs. -/
def turn (company : Company α) (task : Nat) : Company α :=
  match company.programs[task]? with
  | none => company
  | some p =>
    let (p, commons) := p.turn task company.commons
    { programs := company.programs.set task p, commons }

/-- The turns of a schedule, one after the other. -/
def follow (company : Company α) (schedule : List Nat) : Company α :=
  schedule.foldl turn company

end Company

/-- A schedule of rounds in which each of so many programs has one turn. -/
def rounds (programs count : Nat) : List Nat :=
  (List.replicate count (List.range programs)).flatten

namespace Surroundings

variable {α : Type}

/-- Runs programs one after the other, each alone. -/
def runInOrder : List (Program α) → Surroundings → List α × Surroundings
  | [], s => ([], s)
  | p :: rest, s =>
    let (a, s) := s.run p
    let (results, s) := runInOrder rest s
    (a :: results, s)

/-- The turns that an operation of an engine takes at most: four requests that cost time, one
turn to end, and one to spare. -/
def turnsOfOperation : Nat := 6

/-- Runs operations of an engine together, in rounds enough for all of them; one that has not
ended by then is run alone. The results are in the order of the operations. -/
def runTogether (programs : List (Program α)) (s : Surroundings) : List α × Surroundings :=
  let company : Company α := { programs, commons := { surroundings := s } }
  let company := company.follow (rounds programs.length (turnsOfOperation * programs.length))
  runInOrder company.programs company.commons.surroundings

end Surroundings

end Paymaster

import Paymaster.Locks.Table
import Paymaster.Program.Request

/-!
# The locks within a process

The lock table of the process and those of single engines. A new engine takes the table of
the process over while it has entries, and gets a table of its own otherwise
(`LockSource.ofTable`).
-/

namespace Paymaster

/-- The lock tables within a process; tasks are the numbers of programs. -/
structure ProcessLocks where
  tables : Entries LockSource (LockTable Nat) := []
  /-- How many engines were made. -/
  engines : Nat := 0

namespace ProcessLocks

def table (l : ProcessLocks) (source : LockSource) : LockTable Nat :=
  (l.tables.value? source).getD {}

/-- The locks with the table of a source changed. -/
def put (l : ProcessLocks) (source : LockSource) (t : LockTable Nat) : ProcessLocks :=
  { l with tables := l.tables.put source t }

def join (l : ProcessLocks) : LockSource × ProcessLocks :=
  (.ofTable (l.table .shared).isEmpty l.engines, { l with engines := l.engines + 1 })

/-- A task comes to the lock of an address; whether it holds it. -/
def enter (l : ProcessLocks) (source : LockSource) (task : Nat) (address : Text) :
    Bool × ProcessLocks :=
  let t := (l.table source).enter task address
  (t.isInside task, l.put source t)

def leave (l : ProcessLocks) (source : LockSource) (task : Nat) : ProcessLocks :=
  l.put source ((l.table source).leave task)

end ProcessLocks

end Paymaster

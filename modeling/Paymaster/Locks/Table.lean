import Paymaster.Entries
import Paymaster.Text.LowerCase

/-!
# The lock table of a process

One lock per lower-case address, made when the first task comes and dropped when the
last one goes. A task that comes while the lock is held waits behind those that came
before it. Every entry has a serial number of its own and every task remembers the entry
it came to, so that a task can only ever leave that entry.
-/

namespace Paymaster

structure LockTable.Entry (τ : Type) where
  serial : Nat
  /-- How many tasks hold the lock or wait for it. -/
  users : Nat := 0
  holder : Option τ := none
  /-- The tasks that wait, the first in front. -/
  waiting : List τ := []
  deriving Repr

/-- The entry that a task came to. -/
structure LockTable.Stay where
  key : Text
  serial : Nat
  deriving DecidableEq, Repr

/-- The locks of a process and the tasks that use them. -/
structure LockTable (τ : Type) where
  /-- The entries by lower-case address. -/
  entries : Entries Text (LockTable.Entry τ) := []
  stays : Entries τ LockTable.Stay := []
  /-- The serial number of the next entry. -/
  next : Nat := 0
  deriving Repr

namespace LockTable

variable {τ : Type} [DecidableEq τ]

/-! ## Entries -/

/-- A task comes to the lock: it holds a free lock and otherwise waits. -/
def Entry.join (entry : Entry τ) (task : τ) : Entry τ :=
  match entry.holder with
  | none => { entry with users := entry.users + 1, holder := some task }
  | some _ => { entry with users := entry.users + 1, waiting := entry.waiting ++ [task] }

/-- A task goes: the first one that waits follows a holder; one that waits gives up. -/
def Entry.part (entry : Entry τ) (task : τ) : Entry τ :=
  if entry.holder = some task then
    { entry with
      users := entry.users - 1
      holder := entry.waiting.head?
      waiting := entry.waiting.tail }
  else { entry with users := entry.users - 1, waiting := entry.waiting.erase task }

/-! ## The table -/

/-- The entry of an address in lower case. -/
def find? (t : LockTable τ) (key : Text) : Option (Entry τ) :=
  t.entries.lookup key

/-- A task comes to the lock of an address, unless it is already in the table. -/
def enter (t : LockTable τ) (task : τ) (address : Text) : LockTable τ :=
  if (t.stays.lookup task).isSome then t
  else
    let key := address.lower
    let (entry, next) := match t.find? key with
      | some entry => (entry, t.next)
      | none => ({ serial := t.next }, t.next + 1)
    { entries := t.entries.put key (entry.join task)
      stays := t.stays.put task ⟨key, entry.serial⟩
      next }

/-- A task goes, by whatever exit. Its entry is dropped with its last user. -/
def leave (t : LockTable τ) (task : τ) : LockTable τ :=
  match t.stays.lookup task with
  | none => t
  | some stay =>
    let stays := t.stays.remove task
    match t.find? stay.key with
    | none => { t with stays }
    | some entry =>
      if entry.serial = stay.serial then
        let entry := entry.part task
        if entry.users = 0 then
          { t with entries := t.entries.remove stay.key, stays }
        else { t with entries := t.entries.put stay.key entry, stays }
      else { t with stays }

/-! ## Views -/

def isInside (t : LockTable τ) (task : τ) : Bool :=
  t.entries.any fun e => e.2.holder = some task

/-- Whether a task holds a lock or waits for one. -/
def isPresent (t : LockTable τ) (task : τ) : Bool :=
  (t.stays.lookup task).isSome

def holders (t : LockTable τ) : List τ :=
  t.entries.filterMap fun e => e.2.holder

def size (t : LockTable τ) : Nat :=
  t.entries.length

def isEmpty (t : LockTable τ) : Bool :=
  t.entries.isEmpty

end LockTable

end Paymaster

import Paymaster.Ledger.Fault
import Paymaster.Ledger.Row

/-!
# The accounts table

Rows in the order in which they were inserted, one per address. A save is conditional:
an account without a version is inserted if its address has no row, any other account
replaces its row if the row still has the version that was read, and the version grows
by one.
-/

namespace Paymaster

abbrev AccountTable : Type := List Row

namespace AccountTable

/-! ## Looking up -/

def row? (t : AccountTable) (address : Text) : Option Row :=
  t.find? fun r => r.address = address

/-- A row as an account; a row that is no account is a failure of the store. -/
def accountOf : Option Row → Except StoreFault (Option Account)
  | none => .ok none
  | some r =>
    match r.toAccount? with
    | some a => .ok (some a)
    | none => .error .failed

/-- The account of an address in any letter case. -/
def findByAddress (t : AccountTable) (address : Text) : Except StoreFault (Option Account) :=
  if Row.storable address.lower then accountOf (t.row? address.lower) else .error .failed

/-- Grant times in the order of search: none comes before every instant. -/
def earlier (a b : Option Instant) : Bool :=
  match a, b with
  | _, none => false
  | none, some _ => true
  | some x, some y => x < y

/-- The row with the latest grant time; of equal ones the first. -/
def latest : List Row → Option Row
  | [] => none
  | r :: rest =>
    match latest rest with
    | none => some r
    | some best => if earlier r.lastRequest best.lastRequest then some best else some r

/-- The account that was last granted through a token. -/
def findByToken (t : AccountTable) (token : Int) : Except StoreFault (Option Account) :=
  match Integer.write? token with
  | none => .error .failed
  | some text => accountOf (latest (t.filter fun r => r.vipToken = text))

/-! ## Saving -/

/-- The table with the row of its address replaced. -/
def replace (t : AccountTable) (row : Row) : AccountTable :=
  t.map fun r => if r.address = row.address then row else r

/-- Saves an account if nobody has written it since it was read. -/
def save (t : AccountTable) (a : Account) : Except StoreFault (AccountTable × Account) :=
  if a.version = 0 then
    match Row.ofAccount? a 1 with
    | none => .error .failed
    | some row =>
      match t.row? a.address with
      | some _ => .error (.taken a.address)
      | none => .ok (t ++ [row], { a with version := 1 })
  else if Row.fitsVersion a.version then
    match Row.ofAccount? a (a.version + 1) with
    | none => .error .failed
    | some row =>
      match t.row? a.address with
      | some old =>
        if old.version = a.version then
          .ok (t.replace row, { a with version := a.version + 1 })
        else .error (.changed a.address a.version)
      | none => .error (.changed a.address a.version)
  else .error .failed

end AccountTable

end Paymaster

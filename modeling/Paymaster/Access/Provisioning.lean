import Paymaster.Access.Key

/-!
# Provisioning keys

A key is given out once: asking for a key that exists returns its row and changes
nothing. Without a key, or with an empty one, a fresh key is used.
-/

namespace Paymaster

/-- How a request for a key ended. -/
inductive Provision where
  | created (row : ApiKey)
  | existing (row : ApiKey)
  deriving DecidableEq, Repr

namespace Provision

/-- The row of the key that is asked for, if one is asked for and exists. -/
def existing? (t : KeyTable) (key? : Option Text) : Except KeyTable.Fault (Option ApiKey) :=
  match key? with
  | none => .ok none
  | some key => t.lookUp key

/-- The row that is added under a name; `fresh` is its key if no other is asked for. -/
def newRow (name : Text) (key? : Option Text) (fresh : Text) : ApiKey :=
  { key := match key? with
      | some (c :: rest) => c :: rest
      | _ => fresh
    name := some name }

/-- Gives out a key under a name; `fresh` is used if no key is asked for. -/
def run (t : KeyTable) (name : Text) (key? : Option Text) (fresh : Text) :
    Except KeyTable.Fault (KeyTable × Provision) := do
  match ← existing? t key? with
  | some row => return (t, .existing row)
  | none =>
    let row := newRow name key? fresh
    return (← t.insert row, .created row)

/-- The row that a request ended with. -/
def row : Provision → ApiKey
  | .created row => row
  | .existing row => row

/-- The path at which a key is used. -/
def endpoint (key : Text) : Text :=
  '/' :: key

def lines : Provision → List Text
  | .created row =>
    ["API key created: " ++ row.key, "Endpoint: POST " ++ endpoint row.key]
  | .existing row => ["API key already exists: " ++ row.key]

end Provision

end Paymaster

import Paymaster.Bytes.Utf8
import Paymaster.Text.LowerCase

/-!
# Keys

A key admits a caller whose path it is. Keys are texts that are compared exactly; the
table holds one row per key. It keeps texts in UTF-8, so texts with lone surrogates are
neither looked up nor added.
-/

namespace Paymaster

/-- A key with the label under which it was given out. -/
structure ApiKey where
  key : Text
  name : Option Text := none
  enabled : Bool := true
  deriving DecidableEq, Repr

/-- The rows of the table of keys, in the order in which they were added. -/
abbrev KeyTable : Type := List ApiKey

/-- Why a table of keys does not do what it is asked. -/
inductive KeyTable.Fault where
  | taken
  | unencodable (run : Unencodable)
  /-- What is asked for as a key is no text. -/
  | noText
  deriving DecidableEq, Repr

namespace KeyTable

def Fault.message : Fault → Text
  | .taken => "the key is taken"
  | .unencodable run => Utf8.surrogateMessage run
  | .noText => "the key is no text"

def row? (t : KeyTable) (key : Text) : Option ApiKey :=
  t.find? fun row => row.key = key

def lookUp (t : KeyTable) (key : Text) : Except Fault (Option ApiKey) :=
  match Utf8.surrogates? key with
  | some run => .error (.unencodable run)
  | none => .ok (t.row? key)

/-- The first run of lone surrogates in a row, of which the key stands in front. -/
def surrogates? (row : ApiKey) : Option Unencodable :=
  (Utf8.surrogates? row.key).or (row.name.bind Utf8.surrogates?)

/-- The table with one more row, unless its key is taken. -/
def insert (t : KeyTable) (row : ApiKey) : Except Fault KeyTable :=
  match surrogates? row with
  | some run => .error (.unencodable run)
  | none =>
    match t.row? row.key with
    | some _ => .error .taken
    | none => .ok (t ++ [row])

end KeyTable

end Paymaster

import Paymaster.Access.Key
import Paymaster.Bytes.Basic
import Paymaster.Json.Reader
import Paymaster.Json.Writer

/-!
# Keys in a file

A table of keys as a text: one JSON object per line, in the order of the table. A fresh
key is drawn from random bytes, three bytes to four letters.
-/

namespace Paymaster.KeyFile

/-! ## Lines -/

def rowJson (row : ApiKey) : Json :=
  .object
    [("key", .text row.key), ("name", (row.name.map Json.text).getD .null),
     ("enabled", .bool row.enabled)]

def rowOf? (j : Json) : Option ApiKey := do
  let key ← (← j.get? "key").asText?
  let enabled ← (← j.get? "enabled").asBool?
  return { key, name := (j.get? "name").bind Json.asText?, enabled }

def write (t : KeyTable) : Text :=
  t.flatMap fun row => (rowJson row).write ++ "\n"

/-- The lines of a text, without their ends. -/
def lines (t : Text) : List Text :=
  (List.splitOn ('\n' : CodePoint) t).filter fun line => !line.isEmpty

/-- The table of a text, if every line of it is a row. -/
def read? (t : Text) : Option KeyTable :=
  (lines t).mapM fun line => ((Json.read line).toOption).bind rowOf?

/-! ## Fresh keys -/

def letters : Text :=
  "ABCDEFGHIJKLMNOPQRSTUVWXYZabcdefghijklmnopqrstuvwxyz0123456789-_"

/-- The letter of a number below 64. -/
def letter (n : Nat) : CodePoint :=
  letters.getD (n % 64) '-'

/-- A key of random bytes; bytes that do not fill a group of three are left out. -/
def fresh : Bytes → Text
  | a :: b :: c :: rest =>
    let n := Bytes.toNat [a, b, c]
    [letter (n / 262144), letter (n / 4096), letter (n / 64), letter n] ++ fresh rest
  | _ => []

end Paymaster.KeyFile

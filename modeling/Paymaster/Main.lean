import Paymaster.Access.CommandLine
import Paymaster.Access.KeyFile

/-!
# The command that gives out keys

Runs the command line over a file of keys, which the option for the database or the
environment names. Only reading, writing and printing happen here.
-/

namespace Paymaster.Main

/-- The name under which the command is called. -/
def name : Text := "provision-key"

/-- The file that keys are kept in. -/
def location (arguments : List Text) : IO String := do
  match CommandLine.parse arguments with
  | .provision _ _ (some location) => return location.toString
  | _ => return (← IO.getEnv "DATABASE_URL").getD "keys.jsonl"

/-- The text of a file; a file that does not exist has none. -/
def contents (file : String) : IO Text := do
  try
    return Text.ofString (← IO.FS.readFile file)
  catch _ =>
    return []

end Paymaster.Main

open Paymaster in
/-- Gives out a key as the arguments ask. -/
def main (arguments : List String) : IO UInt32 := do
  let arguments := arguments.map Text.ofString
  let file ← Main.location arguments
  match KeyFile.read? (← Main.contents file) with
  | none =>
    IO.eprintln s!"{file} is no file of keys"
    return 1
  | some keys =>
    let fresh := KeyFile.fresh (← IO.getRandomBytes 24).toList
    match CommandLine.run Main.name keys arguments fresh with
    | .error fault =>
      IO.eprintln fault.message.toString
      return 1
    | .ok (after, outcome) =>
      if after ≠ keys then IO.FS.writeFile file (KeyFile.write after).toString
      IO.print outcome.printed.toString
      return UInt32.ofNat outcome.exit

import Paymaster.Json.Display
import Paymaster.Json.Reader
import Paymaster.Json.Writer

/-!
# Log lines

A record is written as one JSON object on one line: the time, the level and the name of
the logger; then the message, whose members stand for themselves if it is an object or a
text that reads as one; then the extra members whose names do not start with an underscore;
then the exception. Later members replace earlier ones of the same name. A record is refused
for an extra member that takes the place of something the record needs, for a message with an
integer that is not read, and for an integer that is not written.
-/

namespace Paymaster.Log

inductive Level where
  | debug
  | info
  | warning
  | error
  deriving DecidableEq, Repr

def Level.word : Level → Text
  | .debug => "DEBUG"
  | .info => "INFO"
  | .warning => "WARNING"
  | .error => "ERROR"

structure Record where
  time : Text
  level : Level
  logger : Text
  message : Json
  extra : Entries Text Json := []
  exception : Option Text := none

/-- The names that a record has of its own. -/
def reservedNames : List Text :=
  ["name", "msg", "args", "levelname", "levelno", "pathname", "filename", "module", "exc_info",
   "exc_text", "stack_info", "lineno", "funcName", "created", "msecs", "relativeCreated",
   "thread", "threadName", "processName", "process", "message", "asctime"]

/-- The name under which a record finds what writes its message. -/
def messageWriter : Text := "getMessage"

inductive Fault where
  /-- An extra member has a name that a record has of its own. -/
  | reserved (name : Text)
  /-- An extra member stands in the place of what writes the message. -/
  | noWriter (found : Json)
  /-- An integer in the message has too many digits. -/
  | integerTooLong (digits : Nat)
  /-- An integer that is to be written has too many digits. -/
  | unwritten
  deriving Repr

def Fault.message : Fault → Text
  | .reserved name => "Attempt to overwrite " ++ name.quoted ++ " in LogRecord"
  | .noWriter found => "'" ++ found.kindWord ++ "' object is not callable"
  | .integerTooLong digits => Integer.tooLongMessage digits
  | .unwritten => Integer.unwrittenMessage

/-! ## Members -/

/-- The message as a member of its own. -/
def Record.writtenMessage (r : Record) : Except Fault (Entries Text Json) :=
  match Entries.value? r.extra messageWriter with
  | some found => .error (.noWriter found)
  | none =>
    if r.message.isWritten then .ok [("message", .text r.message.display)]
    else .error .unwritten

/-- The members of the message: its own if it reads as an object. -/
def Record.messageMembers (r : Record) : Except Fault (Entries Text Json) :=
  match r.message with
  | .text (c :: rest) =>
    if c = '{' then
      match Json.read (c :: rest) with
      | .ok (.object members) => .ok members
      | .error (.integerTooLong digits) => .error (.integerTooLong digits)
      | _ => r.writtenMessage
    else r.writtenMessage
  | _ => r.writtenMessage

def merge (members others : Entries Text Json) : Entries Text Json :=
  others.foldl (fun found m => found.put m.1 m.2) members

/-- Extra members that are written. -/
def isShown (name : Text) : Bool :=
  (Text.after? ['_'] name).isNone

def Record.members (r : Record) : Except Fault (Entries Text Json) :=
  r.messageMembers.map fun message =>
    let base : Entries Text Json :=
      [("timestamp", .text r.time), ("level", .text r.level.word), ("logger", .text r.logger)]
    let shown := r.extra.filter fun m => isShown m.1
    let exception : Entries Text Json := match r.exception with
      | some text => [("exception", .text text)]
      | none => []
    merge (merge (merge base message) shown) exception

/-! ## Lines -/

/-- The line of some members. -/
def line (members : Entries Text Json) : Except Fault Text :=
  if (Json.object members).isWritten then .ok (Json.write (.object members))
  else .error .unwritten

/-- The lines that a record is written as. Records below the level of information are not
written. -/
def emit (r : Record) : Except Fault (List Text) :=
  if r.level = .debug then .ok []
  else
    match r.extra.find? fun m => reservedNames.contains m.1 with
    | some m => .error (.reserved m.1)
    | none => do return [← line (← r.members)]

/-- A message as a record takes it: an object is written first, anything else stays. -/
def prepare (message : Json) : Except Fault Json :=
  match message with
  | .object members => (line members).map .text
  | message => .ok message

/-- The lines of a record whose message is prepared first. -/
def log (r : Record) : Except Fault (List Text) := do
  emit { r with message := ← prepare r.message }

/-- The text of an exception with a class. -/
def exceptionText (name message : Text) : Text :=
  if message.isEmpty then name else name ++ ": " ++ message

end Paymaster.Log

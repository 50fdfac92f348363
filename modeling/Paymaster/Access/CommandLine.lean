import Paymaster.Access.Provisioning
import Paymaster.Text.Classes
import Paymaster.Text.Lines

/-!
# The command line that gives out keys

One name, and the options `--key`, `--database-url` and `--help`, which may be shortened as
long as they stay different from each other. An option takes its value from behind an
equals sign or from the next argument. After two dashes everything is a value. Arguments
that look like negative numbers, or that hold a space, are values as well.
-/

namespace Paymaster.CommandLine

inductive Flag where
  | help
  | key
  | database
  deriving DecidableEq, Repr

def longFlags : List (Text × Flag) :=
  [("--help", .help), ("--key", .key), ("--database-url", .database)]

inductive Mark where
  | value
  | separator
  /-- An option in its long or short form, with what is written behind it. -/
  | flag (f : Flag) (long : Bool) (value? : Option Text)
  | unknown
  deriving DecidableEq, Repr

/-- What the arguments ask for. -/
inductive Parsed where
  | help
  | refused
  /-- A key is given out under a name. The key that is asked for is none in the inner sense
  if its option has no value. -/
  | provision (name : Text) (key? : Option (Option Text)) (database? : Option Text)
  deriving DecidableEq, Repr

/-! ## Arguments -/

/-- A text up to its first equals sign, and what follows the sign. -/
def splitEquals (t : Text) : Text × Option Text :=
  let (name, rest) := t.span fun c : CodePoint => c ≠ '='
  (name, rest.tail?)

/-- Texts that read as negative numbers. -/
def looksNegative (t : Text) : Bool :=
  let isDigit (c : CodePoint) : Bool := c.decimalValue?.isSome
  match Text.after? ['-'] t with
  | none => false
  | some rest =>
    let rest := if rest.getLast?.any fun c : CodePoint => c = '\n' then rest.dropLast else rest
    match rest.dropWhile isDigit with
    | [] => !rest.isEmpty
    | c :: fraction => c = '.' && !fraction.isEmpty && fraction.all isDigit

/-- The long option that a text names or shortens; an error if it could be several. -/
def longFlag (t : Text) : Except Unit (Option Flag) :=
  match longFlags.lookup t with
  | some f => .ok (some f)
  | none =>
    match longFlags.filter fun (name, _) => (Text.after? t name).isSome with
    | [] => .ok none
    | [(_, f)] => .ok (some f)
    | _ => .error ()

/-- What an argument is that names no option. -/
def markOther (t : Text) : Mark :=
  if looksNegative t || t.contains ' ' then .value else .unknown

def markOf (t : Text) : Except Unit Mark :=
  match t with
  | c :: d :: rest =>
    if c ≠ '-' then .ok .value
    else if d = '-' ∧ rest ≠ [] then do
      let (name, value?) := splitEquals t
      match ← longFlag name with
      | some f => return .flag f true value?
      | none => return markOther t
    else if d = 'h' then .ok (.flag .help false (if rest.isEmpty then none else some rest))
    else .ok (markOther t)
  | _ => .ok .value

def marks : List Text → Except Unit (List (Mark × Text))
  | [] => .ok []
  | t :: rest => do
    if t = "--" then return (.separator, t) :: rest.map (.value, ·)
    else
      let mark ← markOf t
      return (mark, t) :: (← marks rest)

/-! ## Meaning -/

structure Draft where
  name? : Option Text := none
  key? : Option (Option Text) := none
  database? : Option Text := none
  /-- The name was the last argument. -/
  justNamed : Bool := false
  /-- There were arguments without a place. -/
  surplus : Bool := false

/-- The value of an option of what is written for it: two dashes alone are dropped. -/
def valueOf (t : Text) : Option Text :=
  if t = "--" then none else some t

/-- The draft with the value of an option. -/
def Draft.set (d : Draft) (f : Flag) (value : Text) : Draft :=
  match f with
  | .help => d
  | .key => { d with key? := some (valueOf value), justNamed := false }
  | .database => { d with database? := valueOf value, justNamed := false }

/-- What the short option for help means with more behind it: it may be repeated there, at
once or behind an equals sign, and nothing else may follow. -/
def shortHelp (tail : Text) : Parsed :=
  let letters := (Text.after? ['='] tail).getD tail
  if !letters.isEmpty && letters.all fun c : CodePoint => c = 'h' then .help else .refused

def understand (d : Draft) : List (Mark × Text) → Parsed
  | [] =>
    match d.name? with
    | some name => if d.surplus then .refused else .provision name d.key? d.database?
    | none => .refused
  | (.value, t) :: rest =>
    match d.name? with
    | none => understand { d with name? := some t, justNamed := true } rest
    | some _ => understand { d with surplus := true, justNamed := false } rest
  | (.separator, _) :: rest =>
    if d.name?.isSome && !d.justNamed then understand { d with surplus := true } rest
    else understand d rest
  | (.unknown, _) :: rest => understand { d with surplus := true, justNamed := false } rest
  | (.flag .help long value?, _) :: _ =>
    match value? with
    | none => .help
    | some tail => if long then .refused else shortHelp tail
  | (.flag f _ (some value), _) :: rest => understand (d.set f value) rest
  | (.flag f _ none, _) :: (.value, value) :: rest => understand (d.set f value) rest
  | (.flag _ _ none, _) :: _ => .refused

/-- What the arguments ask for. -/
def parse (arguments : List Text) : Parsed :=
  match marks arguments with
  | .error () => .refused
  | .ok marks => understand {} marks

/-- The lines of the help page of a program. -/
def helpLines (program : Text) : List Text :=
  ["usage: " ++ program ++ " [-h] [--key KEY] [--database-url DATABASE_URL] name", [],
   "Provision an API key for the JSON-RPC endpoint.", [], "positional arguments:",
   "  name                  label stored with the key", [], "options:",
   "  -h, --help            show this help message and exit",
   "  --key KEY             use this key instead of a random one",
   "  --database-url DATABASE_URL",
   "                        defaults to DATABASE_URL from the environment"]

/-! ## Runs -/

/-- How a run of the command line ended. -/
structure Outcome where
  exit : Nat
  printed : Text

/-- The lines that were printed. A key may hold ends of lines. -/
def Outcome.lines (o : Outcome) : List Text :=
  o.printed.lines

/-- Runs the command line of a program over a table of keys; `fresh` is used if no key is
asked for. -/
def run (program : Text) (t : KeyTable) (arguments : List Text) (fresh : Text) :
    Except KeyTable.Fault (KeyTable × Outcome) :=
  match parse arguments with
  | .help => .ok (t, { exit := 0, printed := .ofLines (helpLines program) })
  | .refused => .ok (t, { exit := 2, printed := [] })
  | .provision _ (some none) _ => .error .noText
  | .provision name key? _ => do
    let (t, provision) ← Provision.run t name key?.join fresh
    return (t, { exit := 0, printed := .ofLines provision.lines })

end Paymaster.CommandLine

import Paymaster.Bytes.Utf8

/-!
# Paths

The paths of the service are the root, the health page, and any other single segment,
which is a key. A line feed behind the root or the health page makes no difference. A path
that would be one of them without the slashes at its end is sent there, and the empty path
is sent to the root. In log lines a key is masked.
-/

namespace Paymaster.Path

/-! ## Segments -/

def root : Text := "/"

def health : Text := "/health"

/-- Whether a path is the path of a route; one line feed may stand behind it. -/
def isAt (route path : Text) : Bool :=
  path = route || path = route ++ "\n"

/-- The single segment of a path, if that is all it has. -/
def segment? (path : Text) : Option Text :=
  match Text.after? ['/'] path with
  | none => none
  | some key => if key.isEmpty || key.contains '/' then none else some key

/-- A path without the slashes at its end. -/
def trimmed (path : Text) : Text :=
  (path.reverse.dropWhile fun c : CodePoint => c = '/').reverse

/-- The path to which a path that is not served is sent. -/
def redirect? (path : Text) : Option Text :=
  if path.isEmpty then some root
  else if path ≠ trimmed path ∧ (segment? (trimmed path)).isSome then some (trimmed path)
  else none

/-! ## Locations -/

/-- Code points that stand in a location as they are. What would end the path there is not
among them. -/
def isPlain (c : CodePoint) : Bool :=
  c.isAsciiDigit || (65 ≤ c.val && c.val ≤ 90) || (97 ≤ c.val && c.val ≤ 122)
    || (Text.ofString "_.-~:/%=@[]!$&'()*+,;").contains c

def escapeDigit (d : Nat) : CodePoint :=
  if d < 10 then CodePoint.ofNat (48 + d) else CodePoint.ofNat (55 + d)

/-- A byte as a part of a location. -/
def escapeByte (b : UInt8) : Text :=
  let c := CodePoint.ofNat b.toNat
  if isPlain c then [c] else ['%', escapeDigit (b.toNat / 16), escapeDigit (b.toNat % 16)]

/-- A text as a part of a location: its bytes, each as it is or escaped. -/
def escape (t : Text) : Except Unencodable Text :=
  (Utf8.encode t).map (·.flatMap escapeByte)

/-! ## Masks -/

/-- A path as it is logged: a long key shows its first four code points, a short one none. -/
def masked (path : Text) : Text :=
  let segment := path.trim fun c : CodePoint => c = '/'
  if path = health ∨ segment.isEmpty ∨ segment.contains '/' then path
  else
    let visible := if 8 < segment.length then segment.take 4 else []
    ('/' :: visible : Text) ++ "***"

end Paymaster.Path

import Paymaster.Bytes.Basic
import Paymaster.Text.Unencodable

/-!
# Texts in UTF-8

A code point takes one to four bytes. Lone surrogates have no bytes of their own in a text
that leaves the service, although each has the form that its number gives it.
-/

namespace Paymaster.Utf8

/-- The bytes of the number of a code point. -/
def ofPoint (c : CodePoint) : Bytes :=
  let n := c.val
  let tail (k : Nat) : UInt8 := UInt8.ofNat (0x80 + n / Nat.pow 64 k % 64)
  if n < 0x80 then [UInt8.ofNat n]
  else if n < 0x800 then [UInt8.ofNat (0xC0 + n / 64), tail 0]
  else if n < 0x10000 then [UInt8.ofNat (0xE0 + n / 4096), tail 1, tail 0]
  else [UInt8.ofNat (0xF0 + n / 262144), tail 2, tail 1, tail 0]

/-- The first run of lone surrogates in a text. -/
def surrogates? (t : Text) : Option Unencodable :=
  Unencodable.find? (fun c => !c.isSurrogate) t

/-- The bytes of a text; a text with lone surrogates has none. -/
def encode (t : Text) : Except Unencodable Bytes :=
  match surrogates? t with
  | some run => .error run
  | none => .ok (t.flatMap ofPoint)

/-- The wording for a text with lone surrogates. -/
def surrogateMessage (run : Unencodable) : Text :=
  run.message "utf-8" "surrogates not allowed"

end Paymaster.Utf8

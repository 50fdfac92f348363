/-!
# Text

A text is a list of Unicode code points. Lone surrogates belong to it, since a
JSON body may carry them and every answer has to hand them back unchanged; that
is why a text is not a `String`. Characters coerce to code points and strings to texts.

The operations here know nothing of the meaning of a code point; classes and
letter case are in the modules beside this one.
-/

namespace Paymaster

abbrev CodePoint : Type := Fin 0x110000

/-- There are code points, so that numerals may name them. -/
instance (priority := high) codePointsExist : @NeZero Nat Zero.ofOfNat0 0x110000 :=
  ⟨by decide⟩

abbrev Text : Type := List CodePoint

/-! ## Code points -/

def CodePoint.ofChar (c : Char) : CodePoint :=
  ⟨c.toNat, by
    have h : c.val.isValidChar := c.valid
    simp only [UInt32.isValidChar, Nat.isValidChar] at h
    show c.val.toNat < 0x110000
    omega⟩

instance : Coe Char CodePoint := ⟨CodePoint.ofChar⟩

@[simp] theorem CodePoint.val_ofChar (c : Char) : (CodePoint.ofChar c).val = c.toNat := rfl

@[simp] theorem CodePoint.ofChar_inj {c d : Char} :
    CodePoint.ofChar c = CodePoint.ofChar d ↔ c = d := by
  constructor
  · intro h
    have toNat_eq : c.toNat = d.toNat := by simpa using congrArg Fin.val h
    exact Char.ext (UInt32.toNat_inj.1 toNat_eq)
  · exact congrArg CodePoint.ofChar

/-- The code point of a number; numbers beyond the range give U+FFFD. -/
def CodePoint.ofNat (n : Nat) : CodePoint :=
  if h : n < 0x110000 then ⟨n, h⟩ else 0xFFFD

def CodePoint.isAscii (c : CodePoint) : Bool :=
  c.val < 128

/-- Code points that stand for one half of a pair in sixteen-bit encodings. -/
def CodePoint.isSurrogate (c : CodePoint) : Bool :=
  0xD800 ≤ c.val && c.val < 0xE000

theorem CodePoint.val_ofNat {n : Nat} (h : n < 0x110000) :
    (CodePoint.ofNat n).val = n := by
  simp [CodePoint.ofNat, h]

/-! ## Texts and strings -/

def Text.ofString (s : String) : Text :=
  s.toList.map CodePoint.ofChar

instance : Coe String Text := ⟨Text.ofString⟩

/-- The string of a text; a lone surrogate, which no string can hold, becomes U+FFFD. -/
def Text.toString (t : Text) : String :=
  String.ofList (t.map fun c => if c.isSurrogate then '\uFFFD' else Char.ofNat c.val)

/-! ## Pieces -/

/-- The texts in order with a separator between neighbours. -/
def Text.join (separator : Text) : List Text → Text
  | [] => []
  | [t] => t
  | t :: rest => t ++ separator ++ Text.join separator rest

def Text.within (opening closing : CodePoint) (t : Text) : Text :=
  opening :: t ++ [closing]

/-- Drops the code points of a class from both ends. -/
def Text.trim (drop : CodePoint → Bool) (t : Text) : Text :=
  ((t.dropWhile drop).reverse.dropWhile drop).reverse

/-- The part after a leading text, if the text starts with it. -/
def Text.after? : Text → Text → Option Text
  | [], t => some t
  | _ :: _, [] => none
  | p :: ps, c :: cs => if p = c then Text.after? ps cs else none

end Paymaster

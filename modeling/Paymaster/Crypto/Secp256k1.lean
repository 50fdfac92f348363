import Paymaster.Crypto.Sha256

/-!
# Signatures on the curve secp256k1

The curve `y² = x³ + 7` over the integers modulo `fieldSize`, with points in projective
coordinates. A signature is deterministic: its nonce is drawn from the key and the
digest. Of the two values of `s` that verify, the lower one is given.
-/

namespace Paymaster.Secp256k1

/-! ## The field -/

/-- The number of elements of the field. -/
def fieldSize : Nat := Nat.pow 2 256 - Nat.pow 2 32 - 977

/-- The number of points that the generator makes. -/
def order : Nat := 0xFFFFFFFFFFFFFFFFFFFFFFFFFFFFFFFEBAAEDCE6AF48A03BBFD25E8CD0364141

/-- A power modulo `n` by squaring; the fuel bounds the binary digits of the exponent. -/
def powMod (n : Nat) : Nat → Nat → Nat → Nat → Nat
  | 0, _, _, acc => acc
  | fuel + 1, base, exponent, acc =>
    let acc := if exponent % 2 = 1 then acc * base % n else acc
    powMod n fuel (base * base % n) (exponent / 2) acc

/-- The inverse modulo a prime, by Fermat's theorem. -/
def inverse (prime a : Nat) : Nat :=
  powMod prime 256 (a % prime) (prime - 2) 1

/-- The difference modulo `fieldSize` of two elements of the field. -/
def sub (a b : Nat) : Nat :=
  (a + (fieldSize - b)) % fieldSize

/-! ## Points -/

/-- A point `(x / z², y / z³)`; `z = 0` is the point at infinity. -/
structure Point where
  x : Nat
  y : Nat
  z : Nat
  deriving DecidableEq, Repr

def Point.infinity : Point := ⟨1, 1, 0⟩

def Point.generator : Point :=
  ⟨0x79BE667EF9DCBBAC55A06295CE870B07029BFCDB2DCE28D959F2815B16F81798,
   0x483ADA7726A3C4655DA4FBFC0E1108A8FD17B448A68554199C47D08FFB10D4B8, 1⟩

def Point.double (p : Point) : Point :=
  if p.z = 0 then p
  else
    let a := p.x * p.x % fieldSize
    let b := p.y * p.y % fieldSize
    let c := b * b % fieldSize
    let d := 4 * p.x * b % fieldSize
    let e := 3 * a % fieldSize
    let x := sub (e * e % fieldSize) (2 * d % fieldSize)
    let y := sub (e * sub d x % fieldSize) (8 * c % fieldSize)
    ⟨x, y, 2 * p.y * p.z % fieldSize⟩

def Point.add (p q : Point) : Point :=
  if p.z = 0 then q
  else if q.z = 0 then p
  else
    let zp := p.z * p.z % fieldSize
    let zq := q.z * q.z % fieldSize
    let u := p.x * zq % fieldSize
    let v := q.x * zp % fieldSize
    let s := p.y * zq % fieldSize * q.z % fieldSize
    let t := q.y * zp % fieldSize * p.z % fieldSize
    if u = v then if s = t then p.double else .infinity
    else
      let h := sub v u
      let r := sub t s
      let hh := h * h % fieldSize
      let hhh := h * hh % fieldSize
      let w := u * hh % fieldSize
      let x := sub (sub (r * r % fieldSize) hhh) (2 * w % fieldSize)
      let y := sub (r * sub w x % fieldSize) (s * hhh % fieldSize)
      ⟨x, y, p.z * q.z % fieldSize * h % fieldSize⟩

/-- A multiple of a point by doubling; the fuel bounds the binary digits of the factor. -/
def Point.times (p : Point) : Nat → Nat → Point → Point
  | 0, _, acc => acc
  | fuel + 1, n, acc => p.double.times fuel (n / 2) (if n % 2 = 1 then acc.add p else acc)

def Point.affine (p : Point) : Nat × Nat :=
  let i := inverse fieldSize p.z
  let ii := i * i % fieldSize
  (p.x * ii % fieldSize, p.y * ii % fieldSize * i % fieldSize)

/-- The affine coordinates of a multiple of the generator. -/
def multiple (n : Nat) : Nat × Nat :=
  (Point.generator.times 256 n .infinity).affine

/-! ## Signing -/

/-- The parts of a signature; `odd` tells which of two points the nonce gave. -/
structure Parts where
  r : Nat
  s : Nat
  odd : Bool
  deriving DecidableEq, Repr

/-- The signature that a nonce gives, unless it is degenerate. -/
def signWith? (key digest nonce : Nat) : Option Parts :=
  let (x, y) := multiple nonce
  let r := x % order
  let s := inverse order nonce * ((digest + r * key) % order) % order
  if nonce = 0 ∨ order ≤ nonce ∨ r = 0 ∨ s = 0 then none
  else if 2 * s < order then some ⟨r, s, y % 2 = 1⟩
  else some ⟨r, order - s, y % 2 = 0⟩

/-- Draws nonces until one gives a signature; the fuel bounds the draws. -/
def draw (key digest : Nat) : Nat → Bytes → Bytes → Parts
  | 0, _, _ => ⟨0, 0, false⟩
  | fuel + 1, k, v =>
    let v := Sha256.keyed k v
    match signWith? key digest v.toNat with
    | some parts => parts
    | none =>
      let k := Sha256.keyed k (v ++ [0])
      draw key digest fuel k (Sha256.keyed k v)

/-- The signature of a digest of 32 bytes under a key. -/
def sign (key : Nat) (digest : Bytes) : Parts :=
  let seed := Bytes.word key ++ digest
  let k := Bytes.zeros 32
  let v := List.replicate 32 1
  let k := Sha256.keyed k (v ++ [0] ++ seed)
  let v := Sha256.keyed k v
  let k := Sha256.keyed k (v ++ [1] ++ seed)
  let v := Sha256.keyed k v
  draw key digest.toNat 64 k v

end Paymaster.Secp256k1

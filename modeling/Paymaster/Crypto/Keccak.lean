import Paymaster.Bytes.Basic

/-!
# Keccak-256

The sponge over 1600 bits with a rate of 136 bytes and the padding `0x01 … 0x80`. The
state is 25 lanes of 64 bits; lane `x + 5 * y` is in column `x` and row `y`.
-/

namespace Paymaster.Keccak

/-- The lanes of the sponge. -/
abbrev State : Type := Vector UInt64 25

/-- The lane in a column and row, both counted modulo five. -/
def State.lane (s : State) (x y : Nat) : UInt64 :=
  s[x % 5 + 5 * (y % 5)]

/-- The state whose lane in column `x` and row `y` is `f x y`. -/
def State.ofLanes (f : Nat → Nat → UInt64) : State :=
  Vector.ofFn fun i => f (i.val % 5) (i.val / 5)

def rotate (lane : UInt64) (n : Nat) : UInt64 :=
  if n % 64 = 0 then lane
  else (lane <<< UInt64.ofNat (n % 64)) ||| (lane >>> UInt64.ofNat (64 - n % 64))

/-! ## The permutation -/

def offsets : Vector Nat 25 :=
  #v[0, 1, 62, 28, 27, 36, 44, 6, 55, 20, 3, 10, 43, 25, 39, 41, 45, 15, 21, 8, 18, 2, 61, 56, 14]

/-- The constants that tell the rounds apart. -/
def roundConstants : List UInt64 :=
  [0x0000000000000001, 0x0000000000008082, 0x800000000000808a, 0x8000000080008000,
   0x000000000000808b, 0x0000000080000001, 0x8000000080008081, 0x8000000000008009,
   0x000000000000008a, 0x0000000000000088, 0x0000000080008009, 0x000000008000000a,
   0x000000008000808b, 0x800000000000008b, 0x8000000000008089, 0x8000000000008003,
   0x8000000000008002, 0x8000000000000080, 0x000000000000800a, 0x800000008000000a,
   0x8000000080008081, 0x8000000000008080, 0x0000000080000001, 0x8000000080008008]

/-- Adds to every lane the parities of two neighbouring columns. -/
def theta (s : State) : State :=
  let parity : Vector UInt64 5 := Vector.ofFn fun x =>
    s.lane x 0 ^^^ s.lane x 1 ^^^ s.lane x 2 ^^^ s.lane x 3 ^^^ s.lane x 4
  let column (x : Nat) : UInt64 := parity[x % 5]
  State.ofLanes fun x y => s.lane x y ^^^ column (x + 4) ^^^ rotate (column (x + 1)) 1

/-- Rotates every lane and moves it to its new place. -/
def rhoPi (s : State) : State :=
  State.ofLanes fun x y =>
    let origin := (x + 3 * y) % 5
    rotate (s.lane origin x) offsets[origin % 5 + 5 * (x % 5)]

/-- Combines every lane with the next two of its row. -/
def chi (s : State) : State :=
  State.ofLanes fun x y => s.lane x y ^^^ (~~~ s.lane (x + 1) y &&& s.lane (x + 2) y)

def round (s : State) (constant : UInt64) : State :=
  let s := chi (rhoPi (theta s))
  s.set 0 (s[0] ^^^ constant)

def permute (s : State) : State :=
  roundConstants.foldl round s

/-! ## The sponge -/

/-- The number of bytes absorbed at a time. -/
def rate : Nat := 136

/-- A message with its padding, a multiple of the rate long. -/
def padded (message : Bytes) : Bytes :=
  let missing := rate - message.length % rate
  if missing = 1 then message ++ [0x81]
  else message ++ [0x01] ++ Bytes.zeros (missing - 2) ++ [0x80]

/-- The lane of eight bytes, the first of them least significant. -/
def laneOf (b : Bytes) : UInt64 :=
  UInt64.ofNat (Bytes.toNat b.reverse)

/-- The bytes of a lane, the least significant first. -/
def laneBytes (lane : UInt64) : Bytes :=
  (Bytes.ofNat 8 lane.toNat).reverse

/-- Adds a block to the state and permutes it. -/
def absorbBlock (s : State) (block : Bytes) : State :=
  permute (State.ofLanes fun x y =>
    s.lane x y ^^^ laneOf ((block.drop (8 * (x + 5 * y))).take 8))

/-- Absorbs blocks one after the other; the fuel bounds their number. -/
def absorb : Nat → State → Bytes → State
  | 0, s, _ => s
  | fuel + 1, s, message =>
    if message.isEmpty then s
    else absorb fuel (absorbBlock s (message.take rate)) (message.drop rate)

def hash (message : Bytes) : Bytes :=
  let input := padded message
  let s := absorb (input.length / rate) (State.ofLanes fun _ _ => 0) input
  laneBytes (s.lane 0 0) ++ laneBytes (s.lane 1 0) ++ laneBytes (s.lane 2 0)
    ++ laneBytes (s.lane 3 0)

theorem length_hash (message : Bytes) : (hash message).length = 32 := by
  simp [hash, laneBytes]

end Paymaster.Keccak

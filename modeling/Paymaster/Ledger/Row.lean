import Paymaster.Account
import Paymaster.Number.Integer

/-!
# Rows of the accounts table

A row keeps numbers of any size as decimal texts; the version is a signed integer of 64
bits. `Row.ofAccount?` and `Row.toAccount?` go between rows and accounts.
-/

namespace Paymaster

structure Row where
  address : Text
  enabled : Bool
  remainingGas : Text
  usedGas : Text
  lastRequest : Option Instant
  vipToken : Text
  version : Int
  deriving DecidableEq, Repr

namespace Row

def storable (t : Text) : Bool :=
  t.all fun c => !c.isSurrogate

def fitsVersion (version : Int) : Bool :=
  -(Nat.pow 2 63 : Int) ≤ version && version < (Nat.pow 2 63 : Int)

/-- The row of an account under a version. -/
def ofAccount? (a : Account) (version : Int) : Option Row := do
  if storable a.address then
    return {
      address := a.address
      enabled := a.enabled
      remainingGas := ← Integer.write? a.remainingGas
      usedGas := ← Integer.write? a.usedGas
      lastRequest := a.lastRequest
      vipToken := ← Integer.write? a.vipToken
      version }
  else none

def balance? (t : Text) : Option Nat :=
  match Integer.read 10 t with
  | .ok (.ofNat n) => some n
  | _ => none

def toAccount? (r : Row) : Option Account := do
  let vipToken ← (Integer.read 10 r.vipToken).toOption
  return {
    address := r.address.lower
    enabled := r.enabled
    remainingGas := ← balance? r.remainingGas
    usedGas := ← balance? r.usedGas
    lastRequest := r.lastRequest
    vipToken
    version := r.version }

end Row

end Paymaster

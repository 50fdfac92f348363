import Paymaster.Json.Basic
import Paymaster.Problem
import Paymaster.Text.LowerCase
import Paymaster.Time

/-!
# Accounts

The gas allowance of one chain address: what remains of the last grant, what was used
over all time, when the last grant was made and through which token. The version counts
the saves; it is zero until the first one.
-/

namespace Paymaster

/-- The token link of an account that was granted without a token. -/
def noToken : Int := -1

structure Account where
  address : Text
  enabled : Bool := true
  remainingGas : Nat := 0
  usedGas : Nat := 0
  lastRequest : Option Instant := none
  vipToken : Int := noToken
  version : Int := 0
  deriving DecidableEq, Repr

namespace Account

/-- The account of outside values: the address has to be a text, and no balance may be
negative. The address is kept in lower case. -/
def ofValues (address : Json) (enabled : Bool) (remaining used : Int)
    (lastRequest : Option Instant) (vipToken version : Int) : Except (List Problem) Account :=
  let balances :=
    Problem.ofNegative "remaining_gas" remaining ++ Problem.ofNegative "used_gas" used
  match address with
  | .text t =>
    if balances.isEmpty then
      .ok
        { address := t.lower, enabled, remainingGas := remaining.toNat, usedGas := used.toNat,
          lastRequest, vipToken, version }
    else .error balances
  | _ => .error (⟨"address", .notText⟩ :: balances)

/-- Granted through a token. -/
def isVip (a : Account) : Bool :=
  a.vipToken ≠ noToken

/-- Whether the last grant still lies inside the window; no answer if the end of the
window is no instant. -/
def rateLimited (a : Account) (now : Instant) (window : Period) : Except TimeFault Bool :=
  match a.lastRequest with
  | none => .ok false
  | some last => do
    let free ← last.after window
    return now < free

end Account

end Paymaster

import Paymaster.Engine.Basic
import Paymaster.Rpc.Result

/-!
# Balances and tiers

What remains of an allowance, and the tiers of the service. An address without an account
and one with a disabled account have the same balance: nothing.
-/

namespace Paymaster

structure Balance where
  remaining : Nat := 0
  /-- The time of the last grant in seconds. -/
  lastRequest : Int := 0
  used : Nat := 0
  deriving DecidableEq, Repr

namespace Balance

def ofAccount (account? : Option Account) : Balance :=
  match account? with
  | none => {}
  | some account =>
    if account.enabled then
      { remaining := account.remainingGas
        lastRequest := match account.lastRequest with
          | some t => t.unixSeconds
          | none => 0
        used := account.usedGas }
    else {}

/-- The record of a balance. -/
def result (b : Balance) : Result :=
  .record
    [{ name := "remain", value := .ok (.text (Digits.decimal b.remaining)) },
     { name := "last_request", value := .ok (.int b.lastRequest) },
     { name := "total_used", value := .ok (.text (Digits.decimal b.used)) }]

/-- The object under which a balance is sent. -/
def toJson (b : Balance) : Json :=
  .object
    [("remain", .text (Digits.decimal b.remaining)), ("last_request", .int b.lastRequest),
     ("total_used", .text (Digits.decimal b.used))]

@[simp] theorem encode_result (b : Balance) : b.result.encode = .ok b.toJson := rfl

end Balance

namespace Engine

/-- The balance of an address in any letter case. -/
def balance (engine : Engine) (address : Text) : Action Balance := do
  return .ofAccount (← engine.findAccount address.lower)

/-- The record of the tiers. -/
def tiersResult (tiers : Tiers) : Result :=
  .record
    [{ name := "max_gas", value := .ok (.text (Digits.decimal tiers.regular)) },
     { name := "vip_contract", value := .ok (.text tiers.vipContract) },
     { name := "max_vip_gas", value := .ok (.text (Digits.decimal tiers.vip)) }]

/-- The object under which the tiers are sent. -/
def tiersJson (tiers : Tiers) : Json :=
  .object
    [("max_gas", .text (Digits.decimal tiers.regular)),
     ("vip_contract", .text tiers.vipContract),
     ("max_vip_gas", .text (Digits.decimal tiers.vip))]

@[simp] theorem encode_tiersResult (tiers : Tiers) :
    (tiersResult tiers).encode = .ok (tiersJson tiers) := rfl

end Engine

end Paymaster

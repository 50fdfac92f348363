import Paymaster.Number.Integer
import Paymaster.Problem
import Paymaster.Time

/-!
# Allowance tiers

How much gas a grant gives: to a new address, to a returning one, and to the owner of a
token. The window is the time between two grants.
-/

namespace Paymaster

structure Tiers where
  create : Nat
  regular : Nat
  vip : Nat
  /-- The token contract as it was configured. -/
  vipContract : Text
  /-- The time between two grants. -/
  window : Period := .day
  deriving DecidableEq, Repr

namespace Tiers

inductive Fault where
  | noText
  | integer (fault : Integer.Fault)
  | problems (problems : List Problem)
  deriving Repr

/-- The number that the setting of an allowance denotes; none stands for a setting that is
no text. -/
def amount (setting : Option Text) : Except Fault Int :=
  match setting with
  | none => .error .noText
  | some t => (Integer.read 10 t).mapError .integer

/-- The problem of a token contract that is no text. -/
def contractProblem (setting : Option Text) : List Problem :=
  if setting.isNone then [⟨"vip_contract", .notText⟩] else []

/-- The tiers of three decimal texts and a token contract. All texts are read before any is
found negative. -/
def ofSettings (create regular vip vipContract : Option Text) : Except Fault Tiers := do
  let create ← amount create
  let regular ← amount regular
  let vip ← amount vip
  let problems :=
    Problem.ofNegative "create_gas" create ++ Problem.ofNegative "max_gas" regular
      ++ Problem.ofNegative "max_vip_gas" vip ++ contractProblem vipContract
  if problems.isEmpty then
    return {
      create := create.toNat, regular := regular.toNat, vip := vip.toNat
      vipContract := vipContract.getD [] }
  else throw (.problems problems)

end Tiers

end Paymaster

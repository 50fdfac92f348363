import Paymaster.Engine.Basic

/-!
# Grants

A grant sets the allowance of an address anew. The owner of a token gets the allowance of
token owners, once per token and window; a returning address gets the regular allowance
once per window; a new address gets the first allowance. A disabled account gets none. An
owner whose token was used inside the window is refused and does not fall back to the
regular allowance.
-/

namespace Paymaster.Engine

/-- Refuses a grant inside the window of an earlier one. -/
def refuseWithin (window : Period) (now : Instant) (account : Account) (refusal : RpcError) :
    Except Failure Unit :=
  match account.rateLimited now window with
  | .error fault => .error (.time fault)
  | .ok true => .error (.rpc refusal)
  | .ok false => .ok ()

/-- Refuses a grant to a disabled account. -/
def refuseDisabled (account : Account) (address : Text) : Except Failure Unit :=
  if account.enabled then .ok () else .error (.because .accountDisabled address)

/-- The refusal for a token that was used inside the window. -/
def tokenRefusal (address : Text) : RpcError :=
  { kind := .frequentRequest, message := "frequent requests with NFT", data := .text address }

/-- The allowance without a token. -/
def regularAllowance (tiers : Tiers) (account? : Option Account) (address : Text)
    (now : Instant) : Except Failure Nat :=
  match account? with
  | none => .ok tiers.create
  | some account => do
    refuseWithin tiers.window now account (.because .frequentRequest address)
    refuseDisabled account address
    return tiers.regular

/-- The allowance of the owner of a token. -/
def tokenAllowance (tiers : Tiers) (holder? : Option Account) (address : Text)
    (now : Instant) : Except Failure Nat := do
  match holder? with
  | none => return tiers.vip
  | some holder =>
    refuseWithin tiers.window now holder (tokenRefusal address)
    return tiers.vip

def granted (account? : Option Account) (address : Text) (allowance : Nat) (now : Instant)
    (token? : Option Nat) : Account :=
  { account?.getD { address } with
    remainingGas := allowance
    lastRequest := some now
    vipToken := match token? with
      | some token => token
      | none => noToken }

/-- Grants an allowance to a lower-case address whose lock is held. -/
def grant (engine : Engine) (address : Text) : Action Unit := do
  let account? ← engine.findAccount address
  let token? ← engine.tokenOf address
  let now ← Action.request .clock
  let allowance ← match token? with
    | none => Action.ofExcept (regularAllowance engine.tiers account? address now)
    | some token => do
      match account? with
      | some account => Action.ofExcept (refuseDisabled account address)
      | none => pure ()
      let holder? ← engine.findHolder token
      Action.ofExcept (tokenAllowance engine.tiers holder? address now)
  let _ ← engine.saveAccount (granted account? address allowance now token?)

/-- The key under which a value that denotes an address is kept: its text in lower case. -/
def addressKey (address : Json) (rule : Address.CaseRule := .any) : Except Failure Text :=
  match address with
  | .text t => if (Address.recognize? rule t).isSome then .ok t.lower else .error invalid
  | _ => .error invalid
where
  /-- The refusal of a value that denotes no address. -/
  invalid : Failure := .because .invalidParams "Invalid address"

def requestGas (engine : Engine) (address : Json) : Action Unit := do
  let key ← Action.ofExcept (addressKey address)
  Action.hold engine.locks key (engine.grant key)

end Paymaster.Engine

import Paymaster.Proofs.Engine.Steps

/-!
# Allowances

When a grant gives an allowance and when a charge is made, and that a refusal of either is
harmless.
-/

namespace Paymaster.Engine

/-! ## What is allowed -/

theorem refuseWithin_eq_ok {window : Period} {now : Instant} {account : Account}
    {refusal : RpcError} :
    refuseWithin window now account refusal = .ok () ↔
      account.rateLimited now window = .ok false := by
  unfold refuseWithin
  constructor
  · intro free
    split at free
    · cases free
    · cases free
    · assumption
  · intro free
    rw [free]

/-- The allowance of a token is given outside the window of its holder. -/
theorem tokenAllowance_eq_ok {tiers : Tiers} {holder? : Option Account} {key : Text}
    {now : Instant} {allowance : Nat} :
    tokenAllowance tiers holder? key now = .ok allowance ↔
      allowance = tiers.vip ∧
        ∀ holder, holder? = some holder → holder.rateLimited now tiers.window = .ok false := by
  unfold tokenAllowance
  cases holder? with
  | none =>
    constructor
    · intro given
      cases given
      exact ⟨rfl, fun holder same => by cases same⟩
    · intro given
      rcases given with ⟨rfl, -⟩
      rfl
  | some holder =>
    constructor
    · intro allowed
      cases free : refuseWithin tiers.window now holder (tokenRefusal key) with
      | error e =>
        simp only [free] at allowed
        cases allowed
      | ok u =>
        simp only [free] at allowed
        cases allowed
        refine ⟨rfl, ?_⟩
        intro _ given
        cases given
        exact refuseWithin_eq_ok.mp free
    · intro given
      rcases given with ⟨rfl, free⟩
      simp only [refuseWithin_eq_ok.mpr (free holder rfl)]
      rfl

theorem refuseDisabled_eq_ok {account : Account} {address : Text}
    (allowed : refuseDisabled account address = .ok ()) : account.enabled = true := by
  unfold refuseDisabled at allowed
  split at allowed
  · assumption
  · cases allowed

/-- The allowance without a token is that of a new address, or of a returning one that is
enabled and whose window is over. -/
theorem regularAllowance_eq_ok {tiers : Tiers} {found : Option Account} {key : Text}
    {now : Instant} {allowance : Nat}
    (allowed : regularAllowance tiers found key now = .ok allowance) :
    (allowance = match found with
      | none => tiers.create
      | some _ => tiers.regular) ∧
      ∀ account, found = some account →
        account.rateLimited now tiers.window = .ok false ∧ account.enabled = true := by
  unfold regularAllowance at allowed
  cases found with
  | none =>
    cases allowed
    exact ⟨rfl, fun account same => by cases same⟩
  | some account =>
    cases free : refuseWithin tiers.window now account (.because .frequentRequest key) with
    | error e =>
      simp only [free] at allowed
      cases allowed
    | ok u =>
      cases enabled : refuseDisabled account key with
      | error e =>
        simp only [free, enabled] at allowed
        cases allowed
      | ok u' =>
        simp only [free, enabled] at allowed
        cases allowed
        refine ⟨rfl, ?_⟩
        intro _ given
        cases given
        exact ⟨refuseWithin_eq_ok.mp free, refuseDisabled_eq_ok enabled⟩

/-- A charge is an enabled account's, and what is charged remained to it. -/
theorem charged?_eq_some {found : Option Account} {cost : Nat} {a : Account}
    (charged : charged? found cost = some a) :
    ∃ old, found = some old ∧ old.enabled = true ∧ cost ≤ old.remainingGas ∧
      a = { old with
        usedGas := old.usedGas + cost
        remainingGas := old.remainingGas - cost } := by
  cases found with
  | none => cases charged
  | some old =>
    by_cases allowed : old.enabled ∧ cost ≤ old.remainingGas
    · rw [charged?, if_pos allowed] at charged
      cases charged
      exact ⟨old, rfl, allowed.1, allowed.2, rfl⟩
    · rw [charged?, if_neg allowed] at charged
      cases charged

/-! ## What is refused -/

theorem harmless_refuseWithin {window : Period} {now : Instant} {account : Account}
    {refusal : RpcError} {e : Failure} (kind : refusal.kind = .frequentRequest)
    (refused : refuseWithin window now account refusal = .error e) : Harmless e := by
  unfold refuseWithin at refused
  split at refused
  · cases refused
    exact Failure.noConfusion
  · cases refused
    exact harmless_rpc (.inl (by simp [kind]))
  · cases refused

theorem harmless_refuseDisabled {account : Account} {address : Text} {e : Failure}
    (refused : refuseDisabled account address = .error e) : Harmless e := by
  unfold refuseDisabled at refused
  split at refused
  · cases refused
  · cases refused
    exact harmless_rpc (.inl RpcError.Kind.noConfusion)

theorem harmless_regularAllowance {tiers : Tiers} {found : Option Account} {key : Text}
    {now : Instant} {e : Failure}
    (refused : regularAllowance tiers found key now = .error e) : Harmless e := by
  unfold regularAllowance at refused
  cases found with
  | none => cases refused
  | some account =>
    cases recent : refuseWithin tiers.window now account (.because .frequentRequest key) with
    | error e' =>
      simp only [recent] at refused
      cases refused
      exact harmless_refuseWithin rfl recent
    | ok u =>
      cases disabled : refuseDisabled account key with
      | error e' =>
        simp only [recent, disabled] at refused
        cases refused
        exact harmless_refuseDisabled disabled
      | ok u' =>
        simp only [recent, disabled] at refused
        cases refused

theorem harmless_tokenAllowance {tiers : Tiers} {holder? : Option Account} {key : Text}
    {now : Instant} {e : Failure}
    (refused : tokenAllowance tiers holder? key now = .error e) : Harmless e := by
  unfold tokenAllowance at refused
  cases holder? with
  | none => cases refused
  | some holder =>
    cases recent : refuseWithin tiers.window now holder (tokenRefusal key) with
    | error e' =>
      simp only [recent] at refused
      cases refused
      exact harmless_refuseWithin rfl recent
    | ok u =>
      simp only [recent] at refused
      cases refused

end Paymaster.Engine

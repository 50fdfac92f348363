import Paymaster.Engine.Balance
import Paymaster.Proofs.Engine.Steps
import Paymaster.Proofs.Number.Hexadecimal
import Paymaster.Proofs.Program.Terms

/-!
# What the engine does not count

The engine counts nothing itself: neither look-ups nor grants, charges or signatures touch the
call statistics (`Engine.uncounted_requestGas`, `Engine.uncounted_balance`). A sponsorship that is
given has the limits of the engine for its gas (`Engine.uncounted_sponsor`).
-/

namespace Paymaster

/-- The terms of a program that counts nothing. It may be told anything. -/
def Terms.uncounted : Terms where
  told _ := True
  asks r := r.counts = false

/-- What is allowed after all histories keeps to terms, whatever it is told. -/
theorem Program.Follows.keeps {α : Type} {terms : Terms} {ends : α → Prop} {p : Program α}
    (followed : p.Follows (fun _ r => terms.asks r) fun _ a => ends a) : p.Keeps terms ends := by
  induction p with
  | done a => exact followed
  | ask r next ih => exact ⟨followed.1, fun answer _ => ih answer (followed.2 answer)⟩

/-- The gas of a sponsorship is the sum of its limits. -/
theorem Sponsorship.gas_ofData (data : Bytes) (limits : GasLimits) :
    (ofData data limits).gas = limits.total := by
  simp only [gas, ofData, limitValue_ofNat, GasLimits.total]
  omega

namespace Engine

variable {α β : Type}

/-- An action that counts nothing, and ends as it should if it has a result. -/
abbrev Uncounted (ends : α → Prop) (x : Action α) : Prop :=
  x.Keeps .uncounted (fun _ => True) ends

theorem uncounted_bind {ends : β → Prop} {x : Action α} {f : α → Action β}
    (first : Uncounted (fun _ => True) x) (rest : ∀ a, Uncounted ends (f a)) :
    Uncounted ends (x >>= f) :=
  Action.keeps_bind (first.mono fun a _ => rest a)

theorem uncounted_ofExcept (outcome : Except Failure α) :
    Uncounted (fun _ => True) (Action.ofExcept outcome) := by
  cases outcome with
  | ok a => trivial
  | error e => trivial

theorem uncounted_hold (source : LockSource) (address : Text) {body : Action α}
    (inside : Uncounted (fun _ => True) body) :
    Uncounted (fun _ => True) (Action.hold source address body) :=
  Action.keeps_hold rfl rfl (fun _ => trivial) inside

variable (engine : Engine)

theorem uncounted_findAccount (address : Text) :
    Uncounted (fun _ => True) (engine.findAccount address) :=
  (follows_findAccount engine rfl (fun _ => trivial) fun _ _ _ => trivial).keeps

theorem uncounted_findHolder (token : Int) :
    Uncounted (fun _ => True) (engine.findHolder token) :=
  (follows_findHolder engine rfl (fun _ => trivial) fun _ _ _ => trivial).keeps

theorem uncounted_lastSave (a : Account) :
    Uncounted (fun _ => True) (do let _ ← engine.saveAccount a : Action Unit) := by
  have saves : Uncounted (fun _ => True) (engine.saveAccount a) :=
    (follows_saveAccount engine rfl (fun _ => trivial) (fun _ => trivial)
      fun _ _ _ _ => trivial).keeps
  exact uncounted_bind saves fun _ => trivial

theorem uncounted_tokenOf (address : Text) :
    Uncounted (fun _ => True) (engine.tokenOf address) :=
  (follows_tokenOf engine (fun _ _ => rfl) (fun _ _ _ => trivial) fun _ _ _ => trivial).keeps

theorem uncounted_authorize (op : UserOperation) :
    Uncounted (fun s : Sponsorship => s.gas = engine.limits.total) (engine.authorize op) := by
  refine (follows_authorize engine (fun _ _ _ _ counts => counts) (fun h s authorized => ?_)
    fun _ _ _ _ => trivial).keeps
  cases authorized with
  | signed => exact Sponsorship.gas_ofData _ _

theorem uncounted_grant (key : Text) : Uncounted (fun _ => True) (engine.grant key) := by
  unfold grant
  refine uncounted_bind (engine.uncounted_findAccount key) fun account? => ?_
  refine uncounted_bind (engine.uncounted_tokenOf key) fun token? => ?_
  refine uncounted_bind (Action.keeps_request rfl fun _ _ => trivial) fun now => ?_
  cases token? with
  | none => exact uncounted_bind (uncounted_ofExcept _) fun _ => engine.uncounted_lastSave _
  | some token =>
    have onward : Uncounted (fun _ => True) (do
        let holder? ← engine.findHolder token
        let allowance ← Action.ofExcept (tokenAllowance engine.tiers holder? key now)
        let _ ← engine.saveAccount (granted account? key allowance now (some token))) :=
      uncounted_bind (engine.uncounted_findHolder token) fun _ =>
        uncounted_bind (uncounted_ofExcept _) fun _ => engine.uncounted_lastSave _
    cases account? with
    | none => exact onward
    | some account => exact uncounted_bind (uncounted_ofExcept _) fun _ => onward

theorem uncounted_charge (key : Text) (cost : Nat) :
    Uncounted (fun _ => True) (engine.charge key cost) := by
  unfold charge
  refine uncounted_bind (engine.uncounted_findAccount key) fun account? => ?_
  cases charged? account? cost with
  | none => trivial
  | some account => exact engine.uncounted_lastSave account

/-! ## Operations -/

theorem uncounted_requestGas (address : Json) :
    Uncounted (fun _ => True) (engine.requestGas address) :=
  uncounted_bind (uncounted_ofExcept _) fun key =>
    uncounted_hold engine.locks key (engine.uncounted_grant key)

theorem uncounted_sponsor (raw : Json) :
    Uncounted (fun s : Sponsorship => s.gas = engine.limits.total) (engine.sponsor raw) :=
  uncounted_bind (uncounted_ofExcept _) fun op =>
    uncounted_bind (uncounted_hold engine.locks _ (engine.uncounted_charge _ _)) fun _ =>
      engine.uncounted_authorize op

theorem uncounted_balance (address : Text) :
    Uncounted (fun _ => True) (engine.balance address) :=
  uncounted_bind (engine.uncounted_findAccount address.lower) fun _ => trivial

end Engine

end Paymaster

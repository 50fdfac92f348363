import Paymaster.Http.Endpoint
import Paymaster.Proofs.Engine.Allowance
import Paymaster.Proofs.Engine.Steps
import Paymaster.Proofs.Http.Admission
import Paymaster.Proofs.Program.Blind
import Paymaster.Proofs.Rpc.Calls
import Paymaster.Proofs.UserOperation.Reading

/-!
# Accounts that do not show

A charge that an account does not bear goes as if the account were not there
(`Engine.blind_charge`), and so does the balance of a disabled account (`Engine.blind_balance`).
So a request that asks for no grant is served without regard to a disabled account, from the
look-up to the response (`Endpoint.blind_respond`). Over two tables that differ in the row of
such an account, and in one and the same world, all requests get the same responses and leave
the row alone (`Endpoint.account_hidden`).
-/

namespace Paymaster

namespace Engine

variable {key : Text} {a : Account} (engine : Engine)

/-- What follows the look-up of a charge. -/
def settle (cost : Nat) (account? : Option Account) : Action Unit :=
  match charged? account? cost with
  | none => throw (.plain .insufficientGas)
  | some account => do let _ ← engine.saveAccount account

theorem settle_of_unable {cost : Nat} {account? : Option Account}
    (unable : charged? account? cost = none) :
    engine.settle cost account? = throw (.plain .insufficientGas) := by
  simp only [settle, unable]

theorem blind_saveAccount {account : Account} (other : account.address ≠ key) :
    (engine.saveAccount account).run.Blind key a := by
  unfold saveAccount
  cases engine.checkDeadline with
  | error fault => trivial
  | ok u =>
    refine ⟨other, fun answer => ?_⟩
    cases answer <;> trivial

theorem blind_settle {cost : Nat} {account? : Option Account}
    (other : ∀ b, account? = some b → b.address ≠ key) :
    (engine.settle cost account?).run.Blind key a := by
  unfold settle
  cases charge : charged? account? cost with
  | none => trivial
  | some account =>
    obtain ⟨b, rfl, -, -, rfl⟩ := charged?_eq_some charge
    exact Action.blind_bind (engine.blind_saveAccount (other b rfl)) fun _ => trivial

/-- A charge that an account does not bear goes as if the account were not there. -/
theorem blind_charge {address : Text} (isKey : address.IsKey) {cost : Nat}
    (unable : address = key → charged? (some a) cost = none) :
    (engine.charge address cost).run.Blind key a := by
  unfold charge findAccount
  cases engine.checkDeadline with
  | error fault => trivial
  | ok u =>
    show Program.AfterLookup key a address _ _
    unfold Program.AfterLookup
    rw [isKey.lower]
    split
    · rename_i here
      have absent : engine.settle cost none = _ := engine.settle_of_unable rfl
      have present := engine.settle_of_unable (unable here)
      refine ⟨?_, ?_, fun fault => trivial⟩
      · show (engine.settle cost none).run = (engine.settle cost (some a)).run
        rw [absent, present]
      · show (engine.settle cost none).run.Blind key a
        rw [absent]
        trivial
    · rename_i there
      intro answer own
      cases answer with
      | error fault => trivial
      | ok account? =>
        refine engine.blind_settle fun b found => ?_
        rw [own b (by rw [found]), isKey.lower]
        exact there

theorem blind_authorize (op : UserOperation) : (engine.authorize op).run.Blind key a :=
  Program.blind_of_follows (engine.follows_authorize (fun _ _ other _ _ => other)
    (fun _ _ _ => trivial) fun _ _ _ _ => trivial)

/-- A sponsorship that an account does not bear goes as if the account were not there. -/
theorem blind_sponsor {raw : Json}
    (unable : ∀ op, UserOperation.read raw = .ok op → senderKey op = key →
      charged? (some a) (op.cost engine.limits) = none) :
    (engine.sponsor raw).run.Blind key a := by
  unfold sponsor
  refine Action.blind_ofExcept_bind fun op given => ?_
  have read := UserOperation.eq_ok_of_mapError given
  refine Action.blind_bind (Action.blind_hold _ _ ?_) fun _ => engine.blind_authorize op
  exact engine.blind_charge (isKey_senderKey read) (unable op read)

/-- The balance of a disabled account is the balance of an address without one. -/
theorem blind_balance (disabled : a.enabled = false) (address : Text) :
    (engine.balance address).run.Blind key a := by
  unfold balance findAccount
  cases engine.checkDeadline with
  | error fault => trivial
  | ok u =>
    show Program.AfterLookup key a address.lower _ _
    unfold Program.AfterLookup
    split
    · refine ⟨?_, trivial, fun fault => trivial⟩
      have same : Balance.ofAccount none = Balance.ofAccount (some a) := by
        simp [Balance.ofAccount, disabled]
      show Program.done (Except.ok (Balance.ofAccount none)) =
        Program.done (Except.ok (Balance.ofAccount (some a)))
      rw [same]
    · intro answer own
      cases answer <;> trivial

end Engine

/-! ## Calls -/

open Dispatcher

/-- A sponsorship that cannot be paid if it is for the account of the key. -/
def Overdraws (s : Settings) (key : Text) (a : Account) (call : Call) : Prop :=
  call.method.lower = Text.lower "pm_sponsorUserOperation" ∧
    ∀ raw rest op limits, call.params = raw :: rest → UserOperation.read raw = .ok op →
      Engine.senderKey op = key → s.limits = .ok limits → a.remainingGas < op.cost limits

/-- A call that must not show whether there is an account under a key: any but a grant if the
account is disabled, and a sponsorship that the account cannot pay. -/
def Hides (s : Settings) (key : Text) (a : Account) (call : Call) : Prop :=
  (a.enabled = false ∧ call.method.lower ≠ Text.lower "pm_requestGas") ∨ Overdraws s key a call

namespace Engine

variable {key : Text} {a : Account}

theorem charged?_of_disabled (disabled : a.enabled = false) (cost : Nat) :
    charged? (some a) cost = none := by
  simp [charged?, disabled]

theorem charged?_of_short {cost : Nat} (short : a.remainingGas < cost) :
    charged? (some a) cost = none := by
  simp [charged?, Nat.not_le.mpr short]

end Engine

namespace Methods

variable {key : Text} {a : Account} (engine : Engine)

theorem blind_sponsor {raw : Json} (blind : (engine.sponsor raw).run.Blind key a) :
    (sponsor engine raw).run.Blind key a :=
  Action.blind_bind blind fun _ _ => trivial

theorem blind_gasRemain (disabled : a.enabled = false) (address : Json) :
    (gasRemain engine address).run.Blind key a :=
  Action.blind_bind (engine.blind_balance disabled _) fun _ => trivial

/-- The first argument of a sponsorship is the first value of its call, as it is. -/
theorem first_of_coerced {params arguments : List Json}
    (coerced : Coerced [.map, .text] params arguments) :
    ∃ rest, params = first arguments :: rest := by
  obtain ⟨enough, each⟩ := coerced
  cases params with
  | nil => cases enough
  | cons raw rest =>
    cases arguments with
    | nil => simp at each
    | cons argument others =>
      have coerce : Shape.map.coerce raw = .ok argument := (List.cons.inj each).1
      refine ⟨rest, ?_⟩
      cases raw with
      | object members =>
        cases coerce
        rfl
      | _ => cases coerce

/-- What a call that hides the account runs is blind to it. -/
theorem blind_of_hides {s : Settings} {call : Call} (hides : Hides s key a call)
    (limits : s.limits = .ok engine.limits) {method : Method Program} {arguments : List Json}
    (found : (registry engine).find? call.method = some method)
    (coerced : Coerced method.shapes call.params arguments) :
    (method.handler arguments).Blind key a := by
  have member := Entries.mem_of_lookup found
  simp only [registry, List.mem_cons, List.not_mem_nil, or_false, Methods.method,
    Prod.mk.injEq] at member
  rcases member with ⟨-, rfl⟩ | ⟨name, rfl⟩ | ⟨-, rfl⟩ | ⟨name, rfl⟩
  · refine Program.blind_map _ (blind_sponsor engine (engine.blind_sponsor fun op read own => ?_))
    rcases hides with ⟨disabled, -⟩ | ⟨-, short⟩
    · exact Engine.charged?_of_disabled disabled _
    · obtain ⟨rest, params⟩ := first_of_coerced coerced
      exact Engine.charged?_of_short (short _ rest op _ params read own limits)
  · rcases hides with ⟨disabled, -⟩ | ⟨sponsors, -⟩
    · exact Program.blind_map _ (blind_gasRemain engine disabled _)
    · exact absurd (sponsors.symm.trans name) (by decide)
  · trivial
  · rcases hides with ⟨-, noGrant⟩ | ⟨sponsors, -⟩
    · exact absurd name noGrant
    · exact absurd (sponsors.symm.trans name) (by decide)

theorem blind_handle {s : Settings} (limits : s.limits = .ok engine.limits) {body : Bytes}
    (hidden : ∀ call, Asks body call → Hides s key a call) :
    ((dispatcher engine).handle body).Blind key a := by
  unfold Dispatcher.handle
  cases got : read body with
  | error escape => trivial
  | ok outcome =>
    cases reads_of_read got with
    | refusal => trivial
    | @call call asks _ =>
      refine Program.blind_bind ?_ fun outcome => ?_
      · unfold invoke
        cases found : (dispatcher engine).registry.find? call.method with
        | none => trivial
        | some method =>
          dsimp only
          cases arguments : coerceArguments method.shapes call.params with
          | error thrown => trivial
          | ok arguments' =>
            exact blind_of_hides engine (hidden call asks) limits found
              ((coerceArguments_eq_ok_iff _ _ _).mp arguments)
      · cases respond call outcome with
        | error escape => trivial
        | ok response =>
          intro answer
          cases answer <;> trivial

end Methods

/-! ## Requests -/

namespace Settings

/-- What is done with an engine may rely on its limits being those of the settings. -/
theorem blind_engine_bind {β : Type} {key : Text} {a : Account} (s : Settings)
    {f : Engine → Action β}
    (goesOn : ∀ engine, s.limits = .ok engine.limits → (f engine).run.Blind key a) :
    (s.engine >>= f).run.Blind key a := by
  unfold engine
  simp only [bind_assoc]
  refine Action.blind_ofExcept_bind fun tiers _ => Action.blind_ofExcept_bind fun client _ => ?_
  refine Action.blind_ofExcept_bind fun limits given locks => ?_
  exact goesOn { tiers, client, limits, locks, storeDeadline := s.storeDeadline } given

end Settings

theorem Gate.blind_authorize {key : Text} {a : Account} (key? : Option Text) :
    (Gate.authorize key?).run.Blind key a := by
  unfold Gate.authorize
  split
  · exact fun found => trivial
  · trivial

namespace Health

variable {key : Text} {a : Account} (s : Settings)

theorem blind_storeAnswers : (storeAnswers s).Blind key a := by
  unfold storeAnswers
  split
  · exact fun _ => trivial
  · trivial

theorem blind_chain : (chain s).Blind key a := by
  unfold chain
  split
  · trivial
  · refine Program.blind_bind ?_ fun connected => ?_
    · rename_i client _
      unfold ChainClient.isConnected
      cases client.deadline.verdict with
      | admitted => exact fun connected => trivial
      | _ => trivial
    · split <;> trivial

theorem blind_lockServer : (lockServer s).Blind key a := by
  unfold lockServer
  split
  · intro reason?
    cases reason? <;> trivial
  · trivial

/-- The health page asks nothing about accounts. -/
theorem blind_page : (page s).Blind key a := by
  unfold page
  refine Program.blind_bind (blind_storeAnswers s) fun answers => ?_
  refine Program.blind_bind (blind_chain s) fun chain => ?_
  refine Program.blind_bind (blind_lockServer s) fun lockServer summary => ?_
  cases summary with
  | error fault => trivial
  | ok summary => exact fun now => trivial

end Health

namespace Endpoint

open Http

variable {s : Settings} {key : Text} {a : Account}

theorem blind_post {body : Bytes} (hidden : ∀ call, Asks body call → Hides s key a call)
    (apiKey : Text) : (post s apiKey body).run.Blind key a := by
  have handled : ((s.engine >>= fun engine =>
      ExceptT.lift ((Methods.dispatcher engine).handle body)).run).Blind key a :=
    s.blind_engine_bind fun engine limits =>
      Program.blind_map _ (Methods.blind_handle engine limits hidden)
  unfold post
  refine Action.blind_ofExcept_bind fun _ _ => ?_
  cases body.isEmpty with
  | true => trivial
  | false =>
    show (Gate.authorize (some apiKey) >>= fun _ => s.engine >>= _).run.Blind key a
    exact Action.blind_bind (Gate.blind_authorize _) fun _ => handled

theorem blind_respond {r : Http.Request} (hidden : ∀ call, Asks r.body call → Hides s key a call) :
    (respond s r).Blind key a := by
  refine Program.blind_map _ ?_
  unfold route
  split
  · trivial
  · split
    · exact Health.blind_page s
    · split
      · trivial
      · split
        · exact Program.blind_map _ (blind_post hidden _)
        · trivial

/-- In whatever world the service works, requests that must not show an account are answered
alike with the account and without it: an account that is disabled as long as no grant is asked
for, and an account that is asked to sponsor more than it can pay. They leave everything alike
as well, and neither add the row of the account nor touch it. -/
theorem account_hidden (s : Settings) {ω : Type} (world : World ω) (w : ω) {key : Text} {row : Row}
    {a : Account} (account : row.toAccount? = some a) {t t' : AccountTable}
    (adds : AccountTable.Adds key row t t') (requests : List Http.Request)
    (hidden : ∀ r ∈ requests, ∀ call, Asks r.body call → Hides s key a call) :
    Program.SameBut key row ((requests.mapM (respond s)).run world.answering (w, t))
      ((requests.mapM (respond s)).run world.answering (w, t')) :=
  (Program.blind_mapM fun r member => blind_respond (hidden r member)).run account world w adds

/-- A call of an operation, posted under the key of `threeKeys` that comes first. -/
def callPosted (operation params : Text) : Http.Request :=
  { bracePosted "first" with
    body := Bytes.ofAscii ("\x7b\"jsonrpc\":\"2.0\",\"id\":1,\"method\":\"" ++ operation ++
      "\",\"params\":[" ++ params ++ "]\x7d") }

/-- The balance of the zero address. -/
def balancePosted : Http.Request :=
  callPosted "pm_gasRemain" ("\"" ++ Address.zero.lower ++ "\"")

/-- A sponsorship for the zero address that pays one for each unit of gas. -/
def sponsorPosted : Http.Request :=
  callPosted "pm_sponsorUserOperation" ("\x7b\"sender\":\"" ++ Address.zero.lower ++
    "\",\"nonce\":0,\"callData\":\"0x\",\"maxFeePerGas\":1,\"maxPriorityFeePerGas\":0\x7d,\"\"")

/-- An empty account of the zero address. -/
def spentRow (enabled : Bool) : Row :=
  { address := Address.zero.lower, enabled, remainingGas := "0", usedGas := "9",
    lastRequest := some 0, vipToken := "7", version := 2 }

/-- Surroundings in which the store is always heard. -/
def attentive : World Surroundings :=
  { answer := Surroundings.answer, receive := fun _ w => (.heard, w) }

/-- Settings with a signing key. -/
def keyed : Settings :=
  { privateKey := some (List.replicate 64 '1') }

theorem adds_spentRow (enabled : Bool) :
    AccountTable.Adds Address.zero.lower (spentRow enabled) [] [spentRow enabled] := by
  refine ⟨rfl, by cases enabled <;> decide, fun address other => ?_⟩
  have unequal : ¬ Address.zero.lower = address := fun same => other same.symm
  simp [AccountTable.row?, spentRow, unequal]

theorem toAccount?_spentRow (enabled : Bool) : (spentRow enabled).toAccount? =
    some { address := Address.zero.lower, enabled, usedGas := 9, lastRequest := some 0,
           vipToken := 7, version := 2 } := by
  cases enabled <;> decide +kernel

/-- A disabled account does not show in its balance or in a sponsorship; an enabled one that is
empty does not show in a sponsorship. -/
theorem account_hidden_spent :
    Program.SameBut Address.zero.lower (spentRow false)
      (([balancePosted, sponsorPosted].mapM (respond keyed)).run attentive.answering
        (threeKeys, []))
      (([balancePosted, sponsorPosted].mapM (respond keyed)).run attentive.answering
        (threeKeys, [spentRow false])) ∧
    Program.SameBut Address.zero.lower (spentRow true)
      (([sponsorPosted].mapM (respond keyed)).run attentive.answering (threeKeys, []))
      (([sponsorPosted].mapM (respond keyed)).run attentive.answering
        (threeKeys, [spentRow true])) := by
  constructor
  · refine account_hidden keyed attentive threeKeys (toAccount?_spentRow false)
      (adds_spentRow false) _ fun r member call asks => .inl ⟨rfl, ?_⟩
    have noGrant : decide (call.method.lower ≠ Text.lower "pm_requestGas") = true := by
      rcases List.mem_cons.mp member with rfl | later
      · exact asks.of_read (p := fun call => decide (call.method.lower ≠ _)) (by decide +kernel)
      · cases List.mem_singleton.mp later
        exact asks.of_read (p := fun call => decide (call.method.lower ≠ _)) (by decide +kernel)
    exact of_decide_eq_true noGrant
  · refine account_hidden keyed attentive threeKeys (toAccount?_spentRow true)
      (adds_spentRow true) _ fun r member call asks => .inr ?_
    cases List.mem_singleton.mp member
    have sponsors := asks.of_read
      (p := fun call => decide (call.method.lower = Text.lower "pm_sponsorUserOperation"))
      (by decide +kernel)
    have pays := asks.of_read (p := fun call => ((call.params.head?.map UserOperation.read).bind
      Except.toOption).any fun op => op.maxFeePerGas = 1) (by decide +kernel)
    refine ⟨of_decide_eq_true sponsors, fun raw rest op limits params read _ given => ?_⟩
    have fee : op.maxFeePerGas = 1 := by
      simpa [params, read, Except.toOption] using pays
    cases given
    rw [UserOperation.cost, fee]
    decide

end Endpoint

end Paymaster

import Paymaster.Proofs.Ledger.World

/-!
# Programs that are blind to an account

A program is blind to an account under a key if it goes on in one and the same way whether the
account is there or not, looks for no holder of a token, and saves nothing under the key
(`Program.Blind`). Like `Program.Follows`, blindness is computed along the program, one rule for
each way to build one. In a world that is the same, a blind program does the same over a table
with the account and over one without it (`Program.Blind.run`).
-/

namespace Paymaster

namespace Program

variable {α β : Type}

/-- What may come after a look-up: under the key, whether there is the account makes no
difference; under another one, the account that is found is the one asked for. -/
def AfterLookup (key : Text) (a : Account) (address : Text)
    (next : Except StoreFault (Option Account) → Program α)
    (blind : Except StoreFault (Option Account) → Prop) : Prop :=
  if address.lower = key then
    next (.ok none) = next (.ok (some a)) ∧ blind (.ok none) ∧ ∀ fault, blind (.error fault)
  else
    ∀ answer, (∀ b, answer = .ok (some b) → b.address = address.lower.lower) → blind answer

/-- Whether the account is there under the key or nothing is makes no difference. -/
def Blind (key : Text) (a : Account) : Program α → Prop
  | .done _ => True
  | .ask (.findAccount address) next =>
    AfterLookup key a address next fun answer => (next answer).Blind key a
  | .ask (.findHolder _) _ => False
  | .ask (.saveAccount b) next => b.address ≠ key ∧ ∀ answer, (next answer).Blind key a
  | .ask _ next => ∀ answer, (next answer).Blind key a

variable {key : Text} {a : Account}

@[simp] theorem blind_done (x : α) : (Program.done x).Blind key a := trivial

theorem blind_ask_other {r : Request} {next : r.Answer → Program α}
    (other : r.concernsAccounts = false) :
    (Program.ask r next).Blind key a ↔ ∀ answer, (next answer).Blind key a := by
  cases r <;> first | rfl | cases other

/-- What asks nothing about accounts is blind up to its end, and on if it goes on so. -/
theorem blind_bind_of_follows {p : Program β} {f : β → Program α}
    (quiet : p.Follows (fun _ r => r.concernsAccounts = false) fun _ b => (f b).Blind key a) :
    (p.bind f).Blind key a := by
  induction p with
  | done b => exact quiet
  | ask r next ih =>
    exact (blind_ask_other quiet.1).mpr fun answer => ih answer (quiet.2 answer)

theorem blind_of_follows {p : Program α}
    (quiet : p.Follows (fun _ r => r.concernsAccounts = false) fun _ _ => True) :
    p.Blind key a := by
  rw [← bind_done p]
  exact blind_bind_of_follows (quiet.mono (fun _ _ => id) fun _ _ _ => trivial)

theorem blind_bind {p : Program β} {f : β → Program α} (blind : p.Blind key a)
    (goesOn : ∀ b, (f b).Blind key a) : (p.bind f).Blind key a := by
  induction p with
  | done b => exact goesOn b
  | ask r next ih =>
    cases r with
    | findAccount address =>
      simp only [bind, Blind, AfterLookup] at blind ⊢
      split
      · rename_i here
        rw [if_pos here] at blind
        obtain ⟨same, absent, fails⟩ := blind
        exact ⟨by rw [same], ih _ absent, fun fault => ih _ (fails fault)⟩
      · rename_i there
        rw [if_neg there] at blind
        exact fun answer own => ih _ (blind answer own)
    | findHolder token => exact blind.elim
    | saveAccount b => exact ⟨blind.1, fun answer => ih _ (blind.2 answer)⟩
    | _ => exact fun answer => ih _ (blind answer)

theorem blind_map {p : Program β} (f : β → α) (blind : p.Blind key a) :
    (f <$> p).Blind key a := by
  rw [map_eq_pure_bind]
  exact blind_bind blind fun b => blind_done (f b)

theorem blind_hold (source : LockSource) (address : Text) {p : Program α}
    (blind : p.Blind key a) : (hold source address p).Blind key a := by
  intro answer
  cases answer with
  | error fault => exact blind_done _
  | ok u =>
    show (p.bind _).Blind key a
    exact blind_bind blind fun result _ => blind_done _

theorem blind_mapM {γ : Type} {f : γ → Program α} {items : List γ}
    (blind : ∀ item ∈ items, (f item).Blind key a) : (items.mapM f).Blind key a := by
  induction items with
  | nil => exact blind_done _
  | cons item rest ih =>
    rw [List.mapM_cons]
    refine blind_bind (blind item List.mem_cons_self) fun first => ?_
    refine blind_bind (ih fun other member => blind other (List.mem_cons_of_mem _ member)) ?_
    exact fun others => blind_done _

/-! ## Two runs -/

/-- What two runs have in common: their results, the state of the world, and all rows but the
one that only the second table has. -/
structure SameBut (key : Text) (row : Row) {ω : Type} (one two : α × (ω × AccountTable)) :
    Prop where
  result : one.1 = two.1
  world : one.2.1 = two.2.1
  tables : AccountTable.Adds key row one.2.2 two.2.2

/-- The answers to a look-up with the account and without it are gone on with in one way. -/
theorem found_alike {address : Text} {next : Except StoreFault (Option Account) → Program α}
    {blind : Except StoreFault (Option Account) → Prop}
    (after : AfterLookup key a address next blind) {row : Row}
    (account : row.toAccount? = some a) {t t' : AccountTable}
    (adds : AccountTable.Adds key row t t') (reception : Reception) :
    blind (reception.hear (t.findByAddress address)) ∧
      next (reception.hear (t.findByAddress address)) =
        next (reception.hear (t'.findByAddress address)) := by
  unfold AfterLookup at after
  split at after
  · rename_i here
    obtain ⟨same, absent, fails⟩ := after
    cases reception with
    | failed fault => exact ⟨fails fault, rfl⟩
    | unheard => exact ⟨fails .timedOut, rfl⟩
    | heard =>
      simp only [Reception.hear, AccountTable.findByAddress, here, adds.absent, adds.present,
        AccountTable.accountOf, account]
      split
      · exact ⟨absent, same⟩
      · exact ⟨fails .failed, rfl⟩
  · rename_i there
    refine ⟨after _ fun b heard => ?_, by rw [adds.findByAddress there]⟩
    cases reception with
    | failed fault => cases heard
    | unheard => cases heard
    | heard => exact AccountTable.lower_of_findByAddress heard

/-- A blind program does the same with the account and without it. -/
theorem Blind.run {p : Program α} (blind : p.Blind key a) {row : Row}
    (account : row.toAccount? = some a) {ω : Type} (world : World ω) (w : ω)
    {t t' : AccountTable} (adds : AccountTable.Adds key row t t') :
    SameBut key row (p.run world.answering (w, t)) (p.run world.answering (w, t')) := by
  induction p generalizing w t t' with
  | done x => exact ⟨rfl, rfl, adds⟩
  | ask r next ih =>
    cases r with
    | findAccount address =>
      obtain ⟨goesOn, alike⟩ :=
        found_alike blind account adds (world.receive (.findAccount address) w).1
      simp only [Program.run, World.answering, ← alike]
      exact ih _ goesOn _ adds
    | findHolder token => exact blind.elim
    | saveAccount b =>
      obtain ⟨alike, after⟩ := adds.save blind.1
      simp only [Program.run, World.answering, ← alike]
      exact ih _ (blind.2 _) _ (after _)
    | _ => exact ih _ (blind _) _ adds

end Program

/-! ## Actions -/

namespace Action

variable {α β : Type} {key : Text} {a : Account}

theorem blind_bind {x : Action α} {f : α → Action β} (blind : x.run.Blind key a)
    (goesOn : ∀ b, (f b).run.Blind key a) : (x >>= f).run.Blind key a := by
  rw [ExceptT.run_bind]
  refine Program.blind_bind blind fun outcome => ?_
  cases outcome with
  | ok b => exact goesOn b
  | error e => exact Program.blind_done _

theorem blind_ofExcept_bind {e : Except Failure α} {f : α → Action β}
    (goesOn : ∀ b, e = .ok b → (f b).run.Blind key a) :
    (ofExcept e >>= f).run.Blind key a := by
  cases e with
  | ok b => exact goesOn b rfl
  | error e => exact Program.blind_done _

theorem blind_hold (source : LockSource) (address : Text) {body : Action α}
    (blind : body.run.Blind key a) : (hold source address body).run.Blind key a :=
  Program.blind_map outcomeOfHold (Program.blind_hold source address blind)

end Action

end Paymaster

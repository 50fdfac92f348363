import Paymaster.Proofs.Engine.Failing
import Paymaster.Proofs.Ledger.Books
import Paymaster.Proofs.Ledger.Tokens

/-!
# The discipline of grants

A grant is a commit of a call for an allowance, with the token and the time that the call had
been told before it (`Engine.grant?`). What it writes follows from the record that it replaces
(`Engine.kept_of_grant`). A record stays once it is there, so only its first commit can be a
grant to a new address (`Engine.not_create_of_commit`), and its grant time never goes back, so
two grants of which the later saw no token are a window apart (`Engine.apart_of_grants`). A
call that fails has written nothing (`Engine.unchanged_of_failed`). All of it holds in every
run with a steady clock (`Engine.disciplined_of_run`).
-/

namespace Paymaster

/-! ## Tiers -/

/-- Which allowance a grant gives. -/
inductive Tier where
  | create
  | regular
  | vip
  deriving DecidableEq, Repr

def Tiers.allowance (tiers : Tiers) : Tier → Nat
  | .create => tiers.create
  | .regular => tiers.regular
  | .vip => tiers.vip

/-- The tier for a record that is found, or none, and a token that is reported, or none. -/
def Tier.of (found : Option Account) (token? : Option Nat) : Tier :=
  match token?, found with
  | some _, _ => .vip
  | none, none => .create
  | none, some _ => .regular

/-- The link of an account to a reported token. -/
def linkOf (token? : Option Nat) : Int :=
  match token? with
  | some token => token
  | none => noToken

namespace Engine

/-! ## What a grant is told -/

theorem Reported.tells {engine : Engine} {key : Text} {asked : List Exchange}
    {token? : Option Nat} (reported : Reported engine key asked token?) :
    asked.findSome? Exchange.number? = token? ∧ asked.findSome? Exchange.reading? = none := by
  cases reported with
  | unasked => exact ⟨rfl, rfl⟩
  | told answer vip owner =>
    refine ⟨?_, rfl⟩
    rw [List.findSome?_singleton]
    rfl

/-- What a grant writes, by the record that it found and by what it was told since. -/
structure Gives (tiers : Tiers) (key : Text) (found : Option Account) (token? : Option Nat)
    (now : Instant) (a : Account) : Prop where
  account : a = granted found key (tiers.allowance (.of found token?)) now token?
  enabled : ∀ old, found = some old → old.enabled = true
  windowOver : token? = none → ∀ old, found = some old →
    old.rateLimited now tiers.window = .ok false

theorem Writes.gives {engine : Engine} {key : Text} {found : Option Account} {address : Json}
    {mid : List Exchange} {a : Account}
    (writes : Writes engine key found (.requestGas address) mid a) :
    ∃ now, mid.findSome? Exchange.reading? = some now ∧
      Gives engine.tiers key found (mid.findSome? Exchange.number?) now a := by
  cases writes with
  | @regular _ asked now allowance reported allowed =>
    obtain ⟨number, reading⟩ := reported.tells
    obtain ⟨tier, free⟩ := regularAllowance_eq_ok allowed
    have noNumber : (asked ++ [(⟨.clock, now⟩ : Exchange)]).findSome? Exchange.number? = none := by
      rw [List.findSome?_append, number]
      rfl
    refine ⟨now, by rw [List.findSome?_append, reading]; rfl, ?_⟩
    rw [noNumber]
    refine ⟨?_, fun old known => (free old known).2, fun _ old known => (free old known).1⟩
    rw [tier]
    cases found <;> rfl
  | @token _ asked token now holder? allowance reported enabled allowed =>
    obtain ⟨number, reading⟩ := reported.tells
    have theToken :
        (asked ++ [(⟨.clock, now⟩ : Exchange), ⟨.findHolder token, .ok holder?⟩]).findSome?
          Exchange.number? = some token := by
      rw [List.findSome?_append, number]
      rfl
    refine ⟨now, by rw [List.findSome?_append, reading]; rfl, ?_⟩
    rw [theToken]
    refine ⟨?_, enabled, fun none => by cases none⟩
    rw [(tokenAllowance_eq_ok.mp allowed).1]
    rfl

/-! ## Grants of a run -/

/-- A grant as its call made it. -/
structure Grant where
  engine : Engine
  token? : Option Nat
  now : Instant
  account : Account

/-- The grant that an event wrote, with what its call had been told before. -/
def grant? (calls : List (Engine × Call)) (before : List Event) (e : Event) : Option Grant :=
  let told := Event.history e.call before
  match e.commit?, calls[e.call]?, told.findSome? Exchange.reading? with
  | some account, some (engine, .requestGas _), some now =>
    some ⟨engine, told.findSome? Exchange.number?, now, account⟩
  | _, _, _ => none

/-- The address of a grant. -/
def Grant.key (g : Grant) : Text :=
  g.account.address

/-- The tier of a grant, by the record that its event found. -/
def Grant.tier (g : Grant) (e : Event) : Tier :=
  .of (e.found.account? g.key) g.token?

/-- What a grant finds, and what it leaves behind. -/
structure GrantKept (e : Event) (g : Grant) : Prop where
  enabled : ∀ old, e.found.account? g.key = some old → old.enabled = true
  windowOver : g.token? = none → ∀ old, e.found.account? g.key = some old →
    old.rateLimited g.now g.engine.tiers.window = .ok false
  written : e.left.account? g.key = some
    { e.found.standing g.key with
      remainingGas := g.engine.tiers.allowance (g.tier e)
      lastRequest := some g.now
      vipToken := linkOf g.token?
      version := (e.found.standing g.key).version + 1 }
  inserted : e.found.account? g.key = none → e.found.row? g.key = none
  others : ∀ address, address ≠ g.key → e.left.row? address = e.found.row? address

section Runs

variable {calls : List (Engine × Call)} {accounts : AccountTable}
  {s : Traffic (Except Failure Reply)} {events before after : List Event} {e f : Event}
  {g g' : Grant}

theorem of_grant? (given : grant? calls before e = some g) :
    e.commit? = some g.account ∧
      (∃ address, calls[e.call]? = some (g.engine, .requestGas address)) ∧
      (Event.history e.call before).findSome? Exchange.reading? = some g.now ∧
      (Event.history e.call before).findSome? Exchange.number? = g.token? := by
  unfold grant? at given
  simp only at given
  split at given
  · rename_i account engine address now wrote named read
    cases given
    exact ⟨wrote, ⟨address, named⟩, read, rfl⟩
  · cases given

/-- Neither the opening of a hold nor the look-up tells a number or a time. -/
theorem Attempt.told {engine : Engine} {call : Call} {found : Option Account}
    {early late : List Event} {look : Event} {a : Account}
    (attempt : Attempt engine call found early look late e a) :
    (Event.history e.call (early ++ look :: late)).findSome? Exchange.reading?
        = (Event.history e.call late).findSome? Exchange.reading? ∧
      (Event.history e.call (early ++ look :: late)).findSome? Exchange.number?
        = (Event.history e.call late).findSome? Exchange.number? := by
  obtain ⟨source, opening⟩ := attempt.opening
  have looked : Event.history e.call (look :: late)
      = look.exchange :: Event.history e.call late := by
    rw [← attempt.own, Event.history_cons_self]
  rw [Event.history_append, looked, opening, attempt.asked]
  exact ⟨rfl, rfl⟩

/-- A grant is made on the record that its call had found. -/
theorem gives_of_run (run : (traffic calls accounts).Run (before ++ e :: after) s)
    (given : grant? calls before e = some g) :
    ∃ address found early look late, before = early ++ look :: late ∧
      Attempt g.engine (.requestGas address) found early look late e g.account ∧
      Gives g.engine.tiers g.key found g.token? g.now g.account := by
  obtain ⟨wrote, ⟨address, named⟩, read, told⟩ := of_grant? given
  obtain ⟨found, early, look, late, rfl, attempt⟩ :=
    attempt_of_named run named (Event.saves_of_commit? wrote)
  obtain ⟨reading, number⟩ := attempt.told
  obtain ⟨now, shown, gives⟩ := attempt.writes.gives
  rw [← reading, read] at shown
  cases shown
  rw [← number, told] at gives
  exact ⟨address, found, early, look, late, rfl, attempt, gives⟩

theorem kept_of_grant (run : (traffic calls accounts).Run (before ++ e :: after) s)
    (given : grant? calls before e = some g) : GrantKept e g := by
  obtain ⟨wrote, -, -, -⟩ := of_grant? given
  have saved := saved_of_commit run wrote
  obtain ⟨address, found, early, look, late, rfl, attempt, gives⟩ := gives_of_run run given
  have stood : e.found.account? g.key = found := attempt.account?_found saved
  have standing : e.found.standing g.key = found.getD { address := g.key } := by
    rw [AccountTable.standing, stood]
  refine ⟨?_, ?_, ?_, ?_, saved.others⟩
  · rw [stood]
    exact gives.enabled
  · rw [stood]
    exact gives.windowOver
  · have stands :
        e.left.account? g.key = some { g.account with version := g.account.version + 1 } :=
      saved.account? attempt.isKey
    rw [stands, gives.account, standing, Grant.tier, stood]
    cases found <;> rfl
  · intro unknown
    rw [Grant.key, attempt.unmoved saved]
    rcases AccountTable.row_of_findByAddress attempt.isKey attempt.read with
      ⟨r, old, -, -, known⟩ | ⟨absent, -⟩
    · rw [← stood, unknown] at known
      cases known
    · exact absent

theorem unknown_of_create (create : g.tier e = .create) :
    e.found.account? g.key = none ∧ g.token? = none := by
  unfold Grant.tier Tier.of at create
  split at create
  · cases create
  · exact ⟨by assumption, by assumption⟩
  · cases create

/-- After a commit on an address no grant there is one to a new address. -/
theorem not_create_of_commit {mid : List Event} {a : Account}
    (run : (traffic calls accounts).Run (before ++ e :: (mid ++ f :: after)) s)
    (wrote : e.commit? = some a) (given : grant? calls (before ++ e :: mid) f = some g)
    (same : g.key = a.address) : g.tier f ≠ .create := by
  intro create
  obtain ⟨row, -, stands⟩ := (saved_of_commit run wrote).row
  obtain ⟨new, present, -⟩ := run.later_between a.address row stands
  have whole : before ++ e :: (mid ++ f :: after) = (before ++ e :: mid) ++ f :: after := by simp
  rw [whole] at run
  have absent := (kept_of_grant run given).inserted (unknown_of_create create).1
  rw [same, present] at absent
  cases absent

/-- The time of a grant was read before it. -/
theorem read_of_grant (given : grant? calls before e = some g) :
    ∃ f ∈ before, f.exchange.reading? = some g.now := by
  obtain ⟨-, -, read, -⟩ := of_grant? given
  obtain ⟨x, member, shown⟩ := List.exists_of_findSome?_eq_some read
  obtain ⟨f, inBefore, -, rfl⟩ := Event.of_mem_history member
  exact ⟨f, inBefore, shown⟩

/-- Two grants to an address, of which the later saw no token, are a window apart. -/
theorem apart_of_grants {mid : List Event}
    (run : (traffic calls accounts).Run (before ++ e :: (mid ++ f :: after)) s)
    (steady : Steady (before ++ e :: (mid ++ f :: after)))
    (given : grant? calls before e = some g)
    (given' : grant? calls (before ++ e :: mid) f = some g') (same : g'.key = g.key)
    (unseen : g'.token? = none) : g.now + g'.engine.tiers.window.micros ≤ g'.now := by
  obtain ⟨wrote, -, -, -⟩ := of_grant? given
  have time : g.account.lastRequest = some g.now := by
    obtain ⟨_, _, _, _, _, -, -, gives⟩ := gives_of_run run given
    rw [gives.account]
    rfl
  have whole : before ++ e :: (mid ++ f :: after) = (before ++ e :: mid) ++ f :: after := by simp
  rw [whole] at run steady
  obtain ⟨s₁, s₂, upTo, step, -⟩ := run.at
  obtain ⟨row, stands, last, shown, le⟩ :=
    granted_since upTo steady.left wrote time (read_of_grant given)
  have stands' : f.found.row? g'.key = some row := by rw [same, step.tables.1]; exact stands
  have kept := kept_of_grant run given'
  cases known : f.found.account? g'.key with
  | none =>
    have absent := kept.inserted known
    rw [stands'] at absent
    cases absent
  | some old =>
    have free := kept.windowOver unseen old known
    rw [AccountTable.account?, stands'] at known
    have last' : old.lastRequest = some last := (Row.version_of_toAccount? known).2.2.1.trans shown
    calc g.now + g'.engine.tiers.window.micros
        ≤ last + g'.engine.tiers.window.micros := Int.add_le_add_right le _
      _ ≤ g'.now := Account.window_over free last'

/-- A grant that succeeds is one grant of its call. -/
theorem grant_of_granted (run : (traffic calls accounts).Run events s) {i : Nat}
    (done : s.programs[i]? = some (.done (.ok .granted))) :
    ∃ before e after g, events = before ++ e :: after ∧ e.call = i ∧
      grant? calls before e = some g ∧ ∀ f ∈ before ++ after, f.call = i → f.commit? = none := by
  obtain ⟨engine, call, named⟩ := named_of_run run done
  obtain ⟨before, e, after, a, b, rfl, rfl, saved⟩ := saved_of_reply run named done
  have asked : e.exchange.request = .saveAccount a := by rw [saved]
  obtain ⟨address, rfl⟩ : ∃ address, call = .requestGas address := by
    have completes := run.ended (started_traffic named) (follows_serve engine call) done
    generalize Event.history e.call (before ++ e :: after) = h at completes
    cases completes with
    | granted => exact ⟨_, rfl⟩
  obtain ⟨found, early, look, late, rfl, attempt⟩ := attempt_of_named run named asked
  obtain ⟨now, read, -⟩ := attempt.writes.gives
  rw [← attempt.told.1] at read
  obtain ⟨s₁, s₂, -, step, -⟩ := run.at
  have committed := step.commit_of_saved saved
  have given : grant? calls (early ++ look :: late) e = some
      ⟨engine, (Event.history e.call (early ++ look :: late)).findSome? Exchange.number?, now,
        a⟩ := by
    simp only [grant?, committed, named, read]
  exact ⟨_, e, after, _, rfl, rfl, given, only_of_run run asked⟩

/-- A call for an allowance that fails changes no record. -/
theorem unchanged_of_failed (run : (traffic calls accounts).Run events s) {i : Nat}
    {engine : Engine} {address : Json} (named : calls[i]? = some (engine, .requestGas address))
    {fault : Failure} (done : s.programs[i]? = some (.done (.error fault)))
    (kept : KeptOnFailure events i) : ∀ f ∈ events, f.call = i → f.left = f.found := by
  have unsaved := run.ended (started_traffic named) (savesLast_requestGas engine address) done
    fault rfl
  exact left_of_not_commits run (not_commits_of_unsaved kept unsaved)

/-! ## The ledger -/

/-- What grants keep to, by the order of their commits. -/
structure Disciplined (calls : List (Engine × Call)) (events : List Event)
    (s : Traffic (Except Failure Reply)) : Prop where
  /-- A call that succeeds makes one grant, and writes nothing else. -/
  granted : ∀ i : Nat, s.programs[i]? = some (.done (.ok .granted)) →
    ∃ before e after g, events = before ++ e :: after ∧ e.call = i ∧
      grant? calls before e = some g ∧ ∀ f ∈ before ++ after, f.call = i → f.commit? = none
  /-- Two grants to an address, of which the later saw no token, are a window apart. -/
  apart : ∀ before e mid f after g g', events = before ++ e :: (mid ++ f :: after) →
    grant? calls before e = some g → grant? calls (before ++ e :: mid) f = some g' →
    g'.key = g.key → g'.token? = none → g.now + g'.engine.tiers.window.micros ≤ g'.now
  /-- Only the first grant to an address can be one to a new address. -/
  createsOnce : ∀ before e mid f after g g', events = before ++ e :: (mid ++ f :: after) →
    grant? calls before e = some g → grant? calls (before ++ e :: mid) f = some g' →
    g'.key = g.key → g'.tier f ≠ .create
  /-- A grant finds no disabled record and sets its account to the allowance of its tier, to its
  time and to its token, and nothing else. -/
  kept : ∀ before e after g, events = before ++ e :: after → grant? calls before e = some g →
    GrantKept e g
  /-- A call for an allowance that fails changes no record, if its failed saves wrote nothing. -/
  failed : ∀ (i : Nat) engine address fault, calls[i]? = some (engine, .requestGas address) →
    s.programs[i]? = some (.done (.error fault)) → KeptOnFailure events i →
    ∀ f ∈ events, f.call = i → f.left = f.found

/-- In every run with a clock that never goes back, grants are disciplined. -/
theorem disciplined_of_run (run : (traffic calls accounts).Run events s)
    (steady : Steady events) : Disciplined calls events s where
  granted i done := grant_of_granted run done
  apart before e mid f after g g' same given given' key unseen := by
    subst same
    exact apart_of_grants run steady given given' key unseen
  createsOnce before e mid f after g g' same given given' key := by
    subst same
    exact not_create_of_commit run (of_grant? given).1 given' key
  kept before e after g same given := by
    subst same
    exact kept_of_grant run given
  failed i engine address fault named done kept := unchanged_of_failed run named done kept

end Runs

/-- Three calls for one address without a token, the last two a day after the first: these two
meet, and one of them is granted. -/
theorem disciplined_of_run_two_days :
    let calls := List.replicate 3 (small none, Call.requestGas (.text Address.zero.lower))
    let first := List.replicate 8 { call := 0 : Traffic.Turn }
    let rest := (List.replicate 8 [1, 2]).flatten.map fun call =>
      { call, now := Instant.day : Traffic.Turn }
    let run := (traffic calls []).play (first ++ rest)
    isGranted run.2 0 = true ∧ isGranted run.2 1 = true ∧ isGranted run.2 2 = false ∧
      Steady run.1 ∧ Disciplined calls run.1 run.2 := by
  intro calls first rest run
  have steady : Steady run.1 := by
    unfold Steady
    decide +kernel
  exact ⟨by decide +kernel, by decide +kernel, by decide +kernel, steady,
    disciplined_of_run (Traffic.run_play _ _) steady⟩

end Engine

end Paymaster

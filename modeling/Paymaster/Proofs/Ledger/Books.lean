import Paymaster.Proofs.Ledger.Commits

/-!
# Books of an account

Every commit is posted to an account as a charge or as a grant. `Books` says how the postings
account for a balance: what was used is the sum of all charges, and what remains is the last
grant less the charges since. The books of every account balance after any run of calls that
meet without exclusion (`Engine.books_of_run`), since a save is done on the record that its
call had found or not at all (`Engine.saveKept_of_run`).
-/

namespace Paymaster

/-! ## Postings -/

/-- A commit as it changes the balance of its account. -/
inductive Posting where
  | charge (cost : Nat)
  | grant (allowance : Nat)
  deriving DecidableEq, Repr

namespace Posting

def cost : Posting → Nat
  | .charge cost => cost
  | .grant _ => 0

def isGrant : Posting → Bool
  | .charge _ => false
  | .grant _ => true

/-- What a posting does to a balance. No more is charged than remained. -/
inductive Moves (old new : Account) : Posting → Prop
  | charge {cost : Nat} : new.usedGas = old.usedGas + cost →
    new.remainingGas + cost = old.remainingGas → Moves old new (.charge cost)
  | grant {allowance : Nat} : new.usedGas = old.usedGas → new.remainingGas = allowance →
    Moves old new (.grant allowance)

end Posting

/-- The postings account for what became of a balance. -/
structure Books (first last : Account) (postings : List Posting) : Prop where
  used : last.usedGas = first.usedGas + (postings.map Posting.cost).sum
  sinceGrant : ∀ before allowance after, postings = before ++ .grant allowance :: after →
    (∀ p ∈ after, p.isGrant = false) →
    last.remainingGas + (after.map Posting.cost).sum = allowance
  sinceStart : (∀ p ∈ postings, p.isGrant = false) →
    last.remainingGas + (postings.map Posting.cost).sum = first.remainingGas

namespace Books

variable {first last new : Account} {postings : List Posting}

theorem start (account : Account) : Books account account [] :=
  ⟨by simp, fun before _ _ same => by simp at same, fun _ => by simp⟩

/-- One more posting. -/
theorem post (books : Books first last postings) {p : Posting} (moves : p.Moves last new) :
    Books first new (postings ++ [p]) := by
  cases moves with
  | @charge cost used remains =>
    refine ⟨?_, fun before allowance after same charges => ?_, fun charges => ?_⟩
    · rw [used, books.used]
      simp [Posting.cost, Nat.add_assoc]
    · rcases List.eq_nil_or_concat after with rfl | ⟨after, p, rfl⟩
      · obtain ⟨-, last⟩ := List.append_inj' same rfl
        cases last
      · rw [List.concat_eq_append, ← List.cons_append, ← List.append_assoc] at same
        obtain ⟨early, last⟩ := List.append_inj' same rfl
        cases last
        have since := books.sinceGrant before allowance after early fun p member =>
          charges p (by simp [member])
        rw [← since, ← remains]
        simp [Posting.cost]
        omega
    · have since := books.sinceStart fun p member => charges p (by simp [member])
      rw [← since, ← remains]
      simp [Posting.cost]
      omega
  | @grant allowance used remains =>
    refine ⟨?_, fun before allowance' after same charges => ?_, fun charges => ?_⟩
    · rw [used, books.used]
      simp [Posting.cost]
    · rcases List.eq_nil_or_concat after with rfl | ⟨after, p, rfl⟩
      · obtain ⟨-, last⟩ := List.append_inj' same rfl
        cases last
        simpa using remains
      · rw [List.concat_eq_append, ← List.cons_append, ← List.append_assoc] at same
        obtain ⟨early, last⟩ := List.append_inj' same rfl
        cases last
        have charge := charges (.grant allowance) (by simp)
        cases charge
    · have charge := charges (.grant allowance) (by simp)
      cases charge

end Books

/-- The account of a key, or the one that a first save starts from. -/
def AccountTable.standing (t : AccountTable) (key : Text) : Account :=
  (t.account? key).getD { address := key }

/-- The record of a key, if there is one, is that of an account, with natural balances. -/
def AccountTable.Readable (t : AccountTable) (key : Text) : Prop :=
  t.row? key ≠ none → t.account? key ≠ none

theorem AccountTable.Saved.account? {t t' : AccountTable} {a : Account} (saved : t.Saved a t')
    (isKey : a.address.IsKey) :
    t'.account? a.address = some { a with version := a.version + 1 } := by
  obtain ⟨row, made, stands⟩ := saved.row
  rw [AccountTable.account?, stands]
  exact Row.toAccount?_of_ofAccount? isKey.lower made

theorem AccountTable.Saved.account?_other {t t' : AccountTable} {a : Account}
    (saved : t.Saved a t') {key : Text} (other : key ≠ a.address) :
    t'.account? key = t.account? key := by
  rw [AccountTable.account?, AccountTable.account?, saved.others key other]

namespace Engine

/-! ## Postings of calls -/

/-- What a call charges; nothing if it sends no operation. -/
def Call.cost (limits : GasLimits) : Call → Nat
  | .requestGas _ => 0
  | .sponsor raw =>
    match UserOperation.read raw with
    | .ok op => op.cost limits
    | .error _ => 0

/-- How a save of a call is posted. -/
def posting (engine : Engine) (call : Call) (a : Account) : Posting :=
  match call with
  | .requestGas _ => .grant a.remainingGas
  | .sponsor _ => .charge (call.cost engine.limits)

/-- How an event is posted to an account; only commits are. -/
def posting? (calls : List (Engine × Call)) (key : Text) (e : Event) : Option Posting :=
  match e.commit?, calls[e.call]? with
  | some a, some (engine, call) => if a.address = key then some (engine.posting call a) else none
  | _, _ => none

/-- What was posted to an account, in order. -/
def postings (calls : List (Engine × Call)) (key : Text) (events : List Event) : List Posting :=
  events.filterMap (posting? calls key)

/-- What a call writes moves the balance as it is posted. -/
theorem Writes.moves {engine : Engine} {call : Call} {found : Option Account} {key : Text}
    {mid : List Exchange} {a old new : Account} (writes : Writes engine key found call mid a)
    (stood : found.getD { address := key } = old) (stands : new.usedGas = a.usedGas)
    (remains : new.remainingGas = a.remainingGas) : (engine.posting call a).Moves old new := by
  subst stood
  cases writes with
  | @charge raw op account read charged =>
    obtain ⟨old, rfl, -, enough, rfl⟩ := charged?_eq_some charged
    have cost : Call.cost engine.limits (.sponsor raw) = op.cost engine.limits := by
      rw [Call.cost, read]
    rw [posting, cost]
    refine .charge stands ?_
    rw [remains]
    exact Nat.sub_add_cancel enough
  | regular => exact .grant (by cases found <;> exact stands) remains
  | token => exact .grant (by cases found <;> exact stands) remains

/-- What is granted is an allowance of the tiers. -/
theorem Writes.allowance {engine : Engine} {call : Call} {found : Option Account} {key : Text}
    {mid : List Exchange} {a : Account} {allowance : Nat}
    (writes : Writes engine key found call mid a)
    (posted : engine.posting call a = .grant allowance) :
    ∃ address, call = .requestGas address ∧
      allowance ∈ [engine.tiers.create, engine.tiers.regular, engine.tiers.vip] := by
  cases writes with
  | charge read charged => cases posted
  | regular told allowed =>
    cases posted
    refine ⟨_, rfl, ?_⟩
    rw [granted, (regularAllowance_eq_ok allowed).1]
    cases found <;> simp
  | token told enabled allowed =>
    cases posted
    refine ⟨_, rfl, ?_⟩
    rw [granted, (tokenAllowance_eq_ok.mp allowed).1]
    simp

section Runs

variable {calls : List (Engine × Call)} {accounts : AccountTable}
  {s : Traffic (Except Failure Reply)} {before after events : List Event} {e : Event}

/-- Each event moves every balance as it is posted, or leaves it. -/
theorem moves_of_run (run : (traffic calls accounts).Run (before ++ e :: after) s) (key : Text) :
    match posting? calls key e with
    | some p => p.Moves (e.found.standing key) (e.left.standing key)
    | none => e.left.account? key = e.found.account? key := by
  obtain ⟨s₁, s₂, -, step, -⟩ := run.at
  have committed := step.commit
  cases wrote : e.commit? with
  | none =>
    rw [wrote] at committed
    simp only [posting?, wrote]
    exact congrArg (·.account? key) committed
  | some a =>
    rw [wrote] at committed
    obtain ⟨saves, b, done⟩ := committed
    have saved := (AccountTable.saved_of_save done).1
    obtain ⟨engine, call, found, early, look, late, named, rfl, attempt⟩ :=
      attempt_of_run run saves
    by_cases own : a.address = key
    · subst own
      simp only [posting?, wrote, named, if_true]
      refine attempt.writes.moves ?_ ?_ ?_
      · rw [AccountTable.standing, attempt.account?_found saved]
      · rw [AccountTable.standing, saved.account? attempt.isKey]
        rfl
      · rw [AccountTable.standing, saved.account? attempt.isKey]
        rfl
    · simp only [posting?, wrote, named, if_neg own]
      exact saved.account?_other fun same => own same.symm

/-- The books of every account balance. -/
theorem books_of_run (run : (traffic calls accounts).Run events s) (key : Text) :
    Books (accounts.standing key) (s.accounts.standing key) (postings calls key events) := by
  generalize start : traffic calls accounts = s₀ at run
  induction run with
  | refl =>
    subst start
    exact Books.start _
  | @step events s' s'' e run step ih =>
    have moved := moves_of_run (start ▸ run.step step) key
    obtain ⟨found, left, -⟩ := step.tables
    rw [found, left] at moved
    rw [postings, List.filterMap_append]
    cases posted : posting? calls key e with
    | none =>
      rw [posted] at moved
      simp only [List.filterMap_cons, posted, List.filterMap_nil, List.append_nil]
      have same : s''.accounts.standing key = s'.accounts.standing key :=
        congrArg (·.getD { address := key }) moved
      rw [same]
      exact ih
    | some p =>
      rw [posted] at moved
      simp only [List.filterMap_cons, posted, List.filterMap_nil]
      exact ih.post moved

/-! ## Balances -/

/-- No event lowers what an account has used. -/
theorem used_le_of_run (run : (traffic calls accounts).Run (before ++ e :: after) s)
    (key : Text) : (e.found.standing key).usedGas ≤ (e.left.standing key).usedGas := by
  have moved := moves_of_run run key
  cases posted : posting? calls key e with
  | none =>
    rw [posted] at moved
    exact Nat.le_of_eq (by rw [AccountTable.standing, AccountTable.standing, moved])
  | some p =>
    rw [posted] at moved
    cases moved with
    | charge used remains => omega
    | grant used remains => omega

/-- A grant is posted with an allowance of the tiers of its call. -/
theorem allowance_of_run (run : (traffic calls accounts).Run (before ++ e :: after) s)
    {key : Text} {allowance : Nat} (posted : posting? calls key e = some (.grant allowance)) :
    ∃ engine address, calls[e.call]? = some (engine, .requestGas address) ∧
      allowance ∈ [engine.tiers.create, engine.tiers.regular, engine.tiers.vip] := by
  cases wrote : e.commit? with
  | none => simp [posting?, wrote] at posted
  | some a =>
    obtain ⟨engine, call, found, early, look, late, named, rfl, attempt⟩ :=
      attempt_of_run run (Event.saves_of_commit? wrote)
    simp only [posting?, wrote, named] at posted
    split at posted
    · rename_i own
      have posted := Option.some.inj posted
      obtain ⟨address, rfl, tier⟩ := attempt.writes.allowance posted
      exact ⟨engine, address, named, tier⟩
    · cases posted

/-- A record with natural balances keeps natural balances. -/
theorem readable_of_run (run : (traffic calls accounts).Run events s) {key : Text}
    (readable : accounts.Readable key) : s.accounts.Readable key := by
  generalize start : traffic calls accounts = s₀ at run
  induction run with
  | refl =>
    subst start
    exact readable
  | @step events s' s'' e run step ih =>
    subst start
    have committed := step.commit
    obtain ⟨found, left, -⟩ := step.tables
    cases wrote : e.commit? with
    | none =>
      rw [wrote] at committed
      rw [← left, committed, found]
      exact ih
    | some a =>
      rw [wrote] at committed
      obtain ⟨saves, b, done⟩ := committed
      have saved := (AccountTable.saved_of_save done).1
      obtain ⟨engine, call, looked, early, look, late, -, -, attempt⟩ :=
        attempt_of_run (run.step step) saves
      rw [found, left] at saved
      by_cases own : key = a.address
      · subst own
        intro _
        rw [saved.account? attempt.isKey]
        exact Option.some_ne_none _
      · unfold AccountTable.Readable
        rw [saved.others key own, saved.account?_other own]
        exact ih

/-! ## Saves of calls -/

/-- What becomes of a save of a call, given the events before it. -/
structure SaveKept (before : List Event) (e : Event) (a : Account)
    (answer : Except StoreFault Account) : Prop where
  /-- The call had looked the account up; a save that is done replaces exactly the record that
  the look-up found, or inserts where it found none, under a version one larger, and changes
  nothing else; one that met another record is refused as stale, and changes nothing. -/
  onRead : ∃ look ∈ before, ∃ found, look.call = e.call ∧
    look.exchange = ⟨.findAccount a.address, .ok found⟩ ∧
    a.version = AccountTable.expectedVersion found ∧
    (e.commit? = some a → e.found.row? a.address = look.found.row? a.address ∧
      e.found.account? a.address = found ∧ e.found.Saved a e.left) ∧
    (e.found.row? a.address ≠ look.found.row? a.address →
      e.commit? = none ∧ ∃ fault, answer = .error fault ∧
        (Row.fitsVersion a.version = true → (Row.ofAccount? a (a.version + 1)).isSome →
          ∃ detail, e.found.save a = .error (.stale detail) ∧
            (fault = .stale detail ∨ fault.isStale = false)))
  /-- A save that is answered is done. -/
  done : ∀ b, answer = .ok b → e.commit? = some a ∧ b = { a with version := a.version + 1 }
  /-- A save that is not done leaves the table. -/
  undone : e.commit? = none → e.left = e.found

theorem saveKept_of_run (run : (traffic calls accounts).Run (before ++ e :: after) s)
    {a : Account} {answer : Except StoreFault Account}
    (saves : e.exchange = ⟨.saveAccount a, answer⟩) : SaveKept before e a answer := by
  obtain ⟨s₁, s₂, -, step, -⟩ := run.at
  have committed := step.commit
  have asked : e.exchange.request = .saveAccount a := by rw [saves]
  obtain ⟨engine, call, found, early, look, late, named, rfl, attempt⟩ := attempt_of_run run asked
  have wrote (b : Account) (some : e.commit? = some b) : b = a ∧ e.found.Saved a e.left := by
    rw [some] at committed
    obtain ⟨asked', c, done⟩ := committed
    rw [asked] at asked'
    cases asked'
    exact ⟨rfl, (AccountTable.saved_of_save done).1⟩
  obtain ⟨-, -, answered⟩ := step.tables
  rw [saves] at answered
  refine ⟨⟨look, by simp, found, attempt.own, attempt.asked, attempt.writes.version, ?_, ?_⟩,
    ?_, ?_⟩
  · intro some
    have saved := (wrote a some).2
    exact ⟨attempt.unmoved saved, attempt.account?_found saved, saved⟩
  · intro moved
    have undone : e.commit? = none := by
      cases some : e.commit? with
      | none => rfl
      | some b => exact absurd (attempt.unmoved (wrote b some).2) moved
    refine ⟨undone, ?_⟩
    cases answer with
    | ok b =>
      rw [step.commit_of_saved saves] at undone
      cases undone
    | error fault =>
      refine ⟨fault, rfl, fun fits made => ?_⟩
      obtain ⟨row, made⟩ := Option.isSome_iff_exists.mp made
      obtain ⟨detail, stale⟩ := AccountTable.stale_of_moved attempt.isKey attempt.read
        attempt.later attempt.writes.version fits made moved
      refine ⟨detail, stale, ?_⟩
      rcases answered.saveAccount_error with verdict | other
      · rw [stale] at verdict
        cases verdict
        exact .inl rfl
      · exact .inr other
  · intro b same
    subst same
    exact ⟨step.commit_of_saved saves, (AccountTable.saved_of_save answered.saveAccount).2⟩
  · intro undone
    rw [undone] at committed
    exact committed

/-! ## Authorizations -/

/-- A call that gave an authorization has one commit, which is posted as its charge. -/
theorem charge_of_reply (run : (traffic calls accounts).Run events s) {i : Nat}
    {engine : Engine} {raw : Json} (named : calls[i]? = some (engine, .sponsor raw))
    {reply : Reply} (done : s.programs[i]? = some (.done (.ok reply))) :
    ∃ before e after op, events = before ++ e :: after ∧ e.call = i ∧
      UserOperation.read raw = .ok op ∧
      posting? calls (senderKey op) e = some (.charge (op.cost engine.limits)) ∧
      ∀ f ∈ before ++ after, f.call = i → f.commit? = none := by
  obtain ⟨before, e, after, a, b, rfl, rfl, saved⟩ := saved_of_reply run named done
  have asked : e.exchange.request = .saveAccount a := by rw [saved]
  obtain ⟨found, early, look, late, rfl, attempt⟩ := attempt_of_named run named asked
  obtain ⟨s₁, s₂, -, step, -⟩ := run.at
  have committed := step.commit_of_saved saved
  have writes := attempt.writes
  generalize Event.history e.call late = mid at writes
  cases writes with
  | @charge raw op account read charged =>
    have keyed := attempt.keyed
    rw [Call.key?, read] at keyed
    have key : a.address = senderKey op := (Option.some.inj keyed).symm
    refine ⟨_, e, after, op, rfl, rfl, read, ?_, only_of_run run asked⟩
    simp [posting?, committed, named, posting, Call.cost, read, key]

/-! ## The ledger -/

/-- Conditional saves protect the ledger from calls that meet without exclusion. -/
theorem ledger_protected (run : (traffic calls accounts).Run events s) :
    (∀ before e after a answer, events = before ++ e :: after →
      e.exchange = ⟨.saveAccount a, answer⟩ → SaveKept before e a answer) ∧
    (∀ before e after key, events = before ++ e :: after →
      (e.found.standing key).usedGas ≤ (e.left.standing key).usedGas) ∧
    (∀ key, accounts.Readable key → s.accounts.Readable key) ∧
    (∀ key, Books (accounts.standing key) (s.accounts.standing key)
      (postings calls key events)) ∧
    (∀ before e after key allowance, events = before ++ e :: after →
      posting? calls key e = some (.grant allowance) →
      ∃ engine address, calls[e.call]? = some (engine, .requestGas address) ∧
        allowance ∈ [engine.tiers.create, engine.tiers.regular, engine.tiers.vip]) ∧
    (∀ i engine raw reply, calls[i]? = some (engine, .sponsor raw) →
      s.programs[i]? = some (.done (.ok reply)) →
      ∃ before e after op, events = before ++ e :: after ∧ e.call = i ∧
        UserOperation.read raw = .ok op ∧
        posting? calls (senderKey op) e = some (.charge (op.cost engine.limits)) ∧
        ∀ f ∈ before ++ after, f.call = i → f.commit? = none) := by
  refine ⟨?_, ?_, fun key => readable_of_run run, books_of_run run, ?_, ?_⟩
  · intro before e after a answer same saves
    subst same
    exact saveKept_of_run run saves
  · intro before e after key same
    subst same
    exact used_le_of_run run key
  · intro before e after key allowance same posted
    subst same
    exact allowance_of_run run posted
  · intro i engine raw reply named done
    exact charge_of_reply run named done

end Runs

/-- Two grants to one address that find no record meet before they save; one of them is
posted. -/
theorem ledger_protected_two_grants :
    let address : Json := .text (Address.zero.lower)
    let calls : List (Engine × Call) :=
      [(small none, .requestGas address), (small none, .requestGas address)]
    let schedule := (List.replicate 7 [0, 1]).flatten.map fun call => { call : Traffic.Turn }
    let run := (traffic calls []).play schedule
    (traffic calls []).Run run.1 run.2 ∧
      postings calls Address.zero.lower run.1 = [.grant 7] ∧
      Books (AccountTable.standing [] Address.zero.lower)
        (run.2.accounts.standing Address.zero.lower) [.grant 7] := by
  intro address calls schedule run
  have played : (traffic calls []).Run run.1 run.2 := Traffic.run_play _ _
  have posted : postings calls Address.zero.lower run.1 = [.grant 7] := by decide +kernel
  refine ⟨played, posted, ?_⟩
  rw [← posted]
  exact (ledger_protected played).2.2.2.1 Address.zero.lower

end Engine

end Paymaster

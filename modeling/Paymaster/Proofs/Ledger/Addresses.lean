import Mathlib.Data.List.Pairwise
import Paymaster.Engine.Balance
import Paymaster.Proofs.Ledger.Commits
import Paymaster.Proofs.Text.Spelling
import Paymaster.Proofs.UserOperation.Reading

/-!
# Records of one address

A grant keeps the spelling of an address as far as its mark goes, a sponsorship always uses the
marked one, and a balance is looked up under the text as it is. So the record of a grant, the
one of a sponsorship and the one that is reported are one record exactly if both spellings have
the mark (`Engine.sharedRecord_iff`). In a run from an empty table no row is there twice
(`Traffic.Run.nodup`) and each was granted (`Engine.granted_of_address`), so that no two records
denote one address exactly if none was granted both with the mark and without it
(`Engine.oneRecordEach_iff`).
-/

namespace Paymaster

/-! ## Addresses of a table -/

namespace AccountTable

def addresses (t : AccountTable) : List Text :=
  t.map Row.address

theorem not_mem_addresses {t : AccountTable} {address : Text}
    (absent : t.row? address = none) : address ∉ t.addresses := by
  intro member
  obtain ⟨r, inTable, same⟩ := List.mem_map.mp member
  exact address_ne_of_row?_eq_none absent inTable same

theorem mem_addresses {t : AccountTable} {key : Text} {a : Account}
    (known : t.account? key = some a) : key ∈ t.addresses := by
  rw [account?, Option.bind_eq_some_iff] at known
  obtain ⟨r, present, -⟩ := known
  obtain ⟨member, address⟩ := mem_of_row? present
  rw [← address]
  exact List.mem_map_of_mem member

theorem addresses_replace (t : AccountTable) (row : Row) :
    addresses (t.replace row) = t.addresses := by
  rw [addresses, replace, List.map_map]
  refine List.map_congr_left fun r _ => ?_
  by_cases same : r.address = row.address
  · simp [same]
  · simp [same]

/-- A save keeps the addresses of a table, or adds its own behind them. -/
theorem nodup_of_save {t t' : AccountTable} {a b : Account} (saved : t.save a = .ok (t', b))
    (nodup : t.addresses.Nodup) : t'.addresses.Nodup := by
  unfold save at saved
  split at saved
  · split at saved
    · cases saved
    · rename_i row made
      obtain ⟨address, -⟩ := Row.of_ofAccount? made
      split at saved
      · cases saved
      · -- A first save found no row of its address.
        rename_i absent
        cases saved
        rw [← address] at absent
        rw [addresses, List.map_append]
        refine List.nodup_append.mpr ⟨nodup, by simp, ?_⟩
        intro x member y only same
        rw [List.map_singleton, List.mem_singleton] at only
        rw [same, only] at member
        exact not_mem_addresses absent member
  · split at saved
    · split at saved
      · cases saved
      · split at saved
        · split at saved
          · cases saved
            rw [addresses_replace]
            exact nodup
          · cases saved
        · cases saved
    · cases saved

/-- No two rows denote one address. -/
def OneRecordEach (t : AccountTable) : Prop :=
  t.addresses.Pairwise fun a b => ∀ x, Address.ofText? a = some x → Address.ofText? b ≠ some x

end AccountTable

theorem Traffic.Run.nodup {α : Type} {s s' : Traffic α} {events : List Event}
    (run : Run s events s') (nodup : s.accounts.addresses.Nodup) :
    s'.accounts.addresses.Nodup := by
  induction run with
  | refl => exact nodup
  | step _ step ih =>
    obtain ⟨found, left, -⟩ := step.tables
    have committed := step.commit
    rw [← left]
    rw [← found] at ih
    split at committed
    · obtain ⟨-, b, done⟩ := committed
      exact AccountTable.nodup_of_save done ih
    · rw [committed]
      exact ih

namespace Engine

/-! ## The record of a call -/

/-- The balance of a text is told from the record of a key, and from no other. -/
def Reports (engine : Engine) (t key : Text) : Prop :=
  (engine.balance t).run.Follows (fun _ r => r = .findAccount key) fun h outcome =>
    ∀ b, outcome = .ok b → ∃ found, h = [⟨.findAccount key, .ok found⟩] ∧ b = .ofAccount found

theorem reports_lower (engine : Engine) (t : Text) : Reports engine t t.lower := by
  refine (Action.follows_bind _ _).mpr (follows_findAccount engine rfl ?_ ?_)
  · intro found b same
    cases same
    exact ⟨found, rfl, rfl⟩
  · intro h e _ b same
    cases same

theorem reports_iff {t key : Text} : (∀ engine, Reports engine t key) ↔ key = t.lower := by
  constructor
  · intro given
    have asked := (given (small none)).1
    cases asked
    rfl
  · rintro rfl engine
    exact reports_lower engine t

/-- A grant to one spelling, a sponsorship of an operation and the balances of two spellings
are about one record. -/
def SharedRecord (a s : Text) (raw : Json) : Prop :=
  ∃ key, Call.key? (.requestGas (.text a)) = some key ∧ Call.key? (.sponsor raw) = some key ∧
    ∀ engine, Reports engine a key ∧ Reports engine s key

/-- Spellings of one address have one record exactly if both have the mark. -/
theorem sharedRecord_iff {a s : Text} {raw : Json} {op : UserOperation}
    (read : UserOperation.read raw = .ok op) (sender : raw.get? "sender" = some (.text s))
    (denotes : Address.ofText? a = some op.sender) :
    SharedRecord a s raw ↔ a.isMarked = true ∧ s.isMarked = true := by
  have spelled := UserOperation.sender_of_read read sender
  have granted : Call.key? (.requestGas (.text a)) = some (op.sender.key a.isMarked) := by
    rw [Call.key?, addressKey_eq_ok.mpr ⟨a, op.sender, rfl, denotes, rfl⟩]
    rfl
  have charged : Call.key? (.sponsor raw) = some (op.sender.key true) := by
    rw [Call.key?, read, ← senderKey_eq_key read]
    rfl
  constructor
  · rintro ⟨key, grants, charges, reports⟩
    rw [charged] at charges
    cases charges
    rw [granted] at grants
    have lowered := reports_iff.mp fun engine => (reports engine).2
    rw [Address.lower_eq_key spelled] at lowered
    exact ⟨(Address.key_inj (Option.some.inj grants)).2, (Address.key_inj lowered).2.symm⟩
  · rintro ⟨marked, marked'⟩
    refine ⟨op.sender.key true, by rw [granted, marked], charged, fun engine => ⟨?_, ?_⟩⟩
    · rw [← marked, ← Address.lower_eq_key denotes]
      exact reports_lower engine a
    · rw [← marked', ← Address.lower_eq_key spelled]
      exact reports_lower engine s

/-! ## The records of a run -/

/-- A grant may be the first to write an account; a charge is made on one that was found. -/
theorem Writes.granted_or_known {engine : Engine} {key : Text} {found : Option Account}
    {call : Call} {mid : List Exchange} {a : Account}
    (writes : Writes engine key found call mid a) :
    (∃ address, call = .requestGas address) ∨ ∃ old, found = some old := by
  cases writes with
  | charge read charged =>
    obtain ⟨old, rfl, -⟩ := charged?_eq_some charged
    exact .inr ⟨old, rfl⟩
  | regular => exact .inl ⟨_, rfl⟩
  | token => exact .inl ⟨_, rfl⟩

theorem spelled_of_key? {address : Json} {key : Text}
    (keyed : Call.key? (.requestGas address) = some key) :
    ∃ t x, address = .text t ∧ Address.ofText? t = some x ∧ key = x.key t.isMarked := by
  cases given : addressKey address with
  | error e =>
    rw [Call.key?, given] at keyed
    cases keyed
  | ok key' =>
    rw [Call.key?, given] at keyed
    cases keyed
    exact addressKey_eq_ok.mp given

section Runs

variable {calls : List (Engine × Call)} {s : Traffic (Except Failure Reply)}
  {events : List Event}

/-- A grant to an address in this spelling was written. -/
def GrantedTo (calls : List (Engine × Call)) (events : List Event) (t : Text) : Prop :=
  ∃ e ∈ events, ∃ engine a, calls[e.call]? = some (engine, .requestGas (.text t)) ∧
    e.commit? = some a

theorem GrantedTo.mono {t : Text} {events more : List Event}
    (granted : GrantedTo calls events t) : GrantedTo calls (events ++ more) t := by
  rcases granted with ⟨e, member, engine, a, named, wrote⟩
  exact ⟨e, List.mem_append_left _ member, engine, a, named, wrote⟩

/-- A text is the spelling in lower case of an address that was granted with the same mark. -/
def GrantedAs (calls : List (Engine × Call)) (events : List Event) (address : Text) : Prop :=
  ∃ t x, GrantedTo calls events t ∧ Address.ofText? t = some x ∧ address = x.key t.isMarked

/-- Of a table that was empty every row was granted: a charge is made on a row that is there
already. -/
theorem granted_of_address (run : (traffic calls []).Run events s) :
    ∀ address ∈ s.accounts.addresses, GrantedAs calls events address := by
  generalize start : traffic calls [] = s₀ at run
  induction run with
  | refl =>
    subst start
    simp [traffic, AccountTable.addresses]
  | @step events s' s'' e run step ih =>
    subst start
    have committed := step.commit
    obtain ⟨found, left, -⟩ := step.tables
    rw [← found] at ih
    rw [← left]
    have kept : ∀ address ∈ e.found.addresses, GrantedAs calls (events ++ [e]) address := by
      intro address member
      obtain ⟨t, x, granted, denotes, key⟩ := ih address member
      exact ⟨t, x, granted.mono, denotes, key⟩
    cases wrote : e.commit? with
    | none =>
      rw [wrote] at committed
      rw [committed]
      exact kept
    | some a =>
      rw [wrote] at committed
      obtain ⟨saves, b, done⟩ := committed
      have saved := (AccountTable.saved_of_save done).1
      obtain ⟨engine, call, looked, early, look, late, named, rfl, attempt⟩ :=
        attempt_of_run (run.step step) saves
      intro address member
      obtain ⟨r, inTable, rfl⟩ := List.mem_map.mp member
      rcases (saved.members r).mp inTable with made | ⟨before, -⟩
      · obtain ⟨own, -⟩ := Row.of_ofAccount? made
        rw [own]
        rcases attempt.writes.granted_or_known with ⟨given, rfl⟩ | ⟨old, rfl⟩
        · obtain ⟨t, x, rfl, denotes, key⟩ := spelled_of_key? attempt.keyed
          exact ⟨t, x, ⟨e, by simp, engine, a, named, wrote⟩, denotes, key⟩
        · exact kept a.address (AccountTable.mem_addresses (attempt.account?_found saved))
      · exact kept r.address (List.mem_map_of_mem before)

/-- A spelling that was granted has a row from then on. -/
theorem address_of_granted (run : (traffic calls []).Run events s) {t : Text} {x : Address}
    (granted : GrantedTo calls events t) (denotes : Address.ofText? t = some x) :
    x.key t.isMarked ∈ s.accounts.addresses := by
  rcases granted with ⟨e, member, engine, a, named, wrote⟩
  obtain ⟨before, after, rfl⟩ := List.append_of_mem member
  obtain ⟨found, early, look, late, rfl, attempt⟩ :=
    attempt_of_named run named (Event.saves_of_commit? wrote)
  obtain ⟨t', x', same, denotes', key⟩ := spelled_of_key? attempt.keyed
  cases same
  rw [denotes] at denotes'
  cases denotes'
  obtain ⟨row, -, stands⟩ := (saved_of_commit run wrote).row
  obtain ⟨s₁, s₂, -, step, rest⟩ := run.at
  rw [step.tables.2.1] at stands
  obtain ⟨new, present, -⟩ := rest.later a.address row stands
  obtain ⟨inTable, address⟩ := AccountTable.mem_of_row? present
  rw [← key, ← address]
  exact List.mem_map_of_mem inTable

/-- From an empty table no two records denote one address exactly if no address was granted
both with the mark and without it. -/
theorem oneRecordEach_iff (run : (traffic calls []).Run events s) :
    s.accounts.OneRecordEach ↔
      ∀ t t' x, GrantedTo calls events t → GrantedTo calls events t' →
        Address.ofText? t = some x → Address.ofText? t' = some x → t.isMarked = t'.isMarked := by
  constructor
  · intro each t t' x granted granted' denotes denotes'
    by_contra differ
    have member := address_of_granted run granted denotes
    have member' := address_of_granted run granted' denotes'
    have ne : x.key t.isMarked ≠ x.key t'.isMarked := fun same => differ (Address.key_inj same).2
    have symmetric : Std.Symm fun a b : Text => ∀ x, Address.ofText? a = some x →
        Address.ofText? b ≠ some x :=
      ⟨fun a b distinct x denotes denotes' => distinct x denotes' denotes⟩
    have distinct := List.Pairwise.forall each member member' ne
    exact distinct x (Address.ofText?_key x _) (Address.ofText?_key x _)
  · intro uniform
    have nodup : s.accounts.addresses.Nodup := run.nodup (by simp [traffic, AccountTable.addresses])
    refine nodup.imp_of_mem fun {a b} member member' ne x denotes denotes' => ne ?_
    obtain ⟨t, y, granted, spells, rfl⟩ := granted_of_address run a member
    obtain ⟨t', y', granted', spells', rfl⟩ := granted_of_address run b member'
    rw [Address.ofText?_key] at denotes denotes'
    cases denotes
    cases denotes'
    rw [uniform t t' x granted granted' spells spells']

/-- Every call saves the record of its key; which calls have one key, and which records denote
one address, is decided by the marks alone. -/
theorem oneRecord_iff (run : (traffic calls []).Run events s) :
    (∀ before e after a, events = before ++ e :: after → e.exchange.request = .saveAccount a →
      ∃ engine call, calls[e.call]? = some (engine, call) ∧ call.key? = some a.address) ∧
    (∀ a sender raw op, UserOperation.read raw = .ok op →
      raw.get? "sender" = some (.text sender) → Address.ofText? a = some op.sender →
      (SharedRecord a sender raw ↔ a.isMarked = true ∧ sender.isMarked = true)) ∧
    (s.accounts.OneRecordEach ↔
      ∀ t t' x, GrantedTo calls events t → GrantedTo calls events t' →
        Address.ofText? t = some x → Address.ofText? t' = some x → t.isMarked = t'.isMarked) := by
  refine ⟨fun before e after a same saves => ?_, fun a sender raw op => sharedRecord_iff,
    oneRecordEach_iff run⟩
  subst same
  obtain ⟨engine, call, found, early, look, late, named, -, attempt⟩ := attempt_of_run run saves
  exact ⟨engine, call, named, attempt.keyed⟩

end Runs

/-- Calls one after the other, each in eight turns, from an empty table. -/
def inOrder (calls : List Call) : List (Engine × Call) × List Traffic.Turn :=
  (calls.map fun call => (small none, call),
    (calls.mapIdx fun i _ => List.replicate 8 { call := i }).flatten)

/-- An operation of the zero address that costs six; its sender is written without a mark. -/
def bareOperation : Json :=
  .object [("sender", .text (Address.zero.key false)), ("nonce", .int 0), ("callData", .text "0x"),
    ("maxFeePerGas", .int 1), ("maxPriorityFeePerGas", .int 0)]

/-- A grant with the mark and a charge without it are made on one record. -/
theorem oneRecord_iff_marked_grant :
    let turns := inOrder [.requestGas (.text (Address.zero.key true)), .sponsor bareOperation]
    let run := (traffic turns.1 []).play turns.2
    (traffic turns.1 []).Run run.1 run.2 ∧ run.2.accounts.map Row.version = [2] ∧
      run.2.accounts.OneRecordEach := by
  intro turns run
  have played : (traffic turns.1 []).Run run.1 run.2 := Traffic.run_play _ _
  have only : ∀ t, GrantedTo turns.1 run.1 t → t = Address.zero.key true := by
    rintro t ⟨e, -, engine, a, named, -⟩
    have member := List.mem_of_getElem? named
    simp only [turns, inOrder, List.map_cons, List.map_nil, List.mem_cons, List.not_mem_nil,
      or_false, Prod.mk.injEq, Call.requestGas.injEq, Json.text.injEq, reduceCtorEq, and_false]
      at member
    exact member.2
  refine ⟨played, by decide +kernel, (oneRecord_iff played).2.2.mpr ?_⟩
  intro t t' x granted granted' _ _
  rw [only t granted, only t' granted']

/-- Two grants to the zero address, one of them without the mark, make two records. -/
theorem not_oneRecord_bare_grant :
    let turns := inOrder
      [.requestGas (.text (Address.zero.key false)), .requestGas (.text (Address.zero.key true))]
    let run := (traffic turns.1 []).play turns.2
    (traffic turns.1 []).Run run.1 run.2 ∧ ¬run.2.accounts.OneRecordEach := by
  intro turns run
  refine ⟨Traffic.run_play _ _, fun each => ?_⟩
  have two : run.2.accounts.addresses = [Address.zero.key false, Address.zero.key true] := by
    decide +kernel
  rw [AccountTable.OneRecordEach, two, List.pairwise_pair] at each
  exact each Address.zero (Address.ofText?_key _ _) (Address.ofText?_key _ _)

end Engine

end Paymaster

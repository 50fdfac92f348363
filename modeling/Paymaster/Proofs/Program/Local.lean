import Paymaster.Proofs.Ledger.Placing

/-!
# Programs about one account

A world that has no state answers a question always alike. In such a world a program is local to
a key if all that matters to it of the accounts table is the row under the key and when the last
grants through some tokens were made: over all tables that agree on these it ends with the same
result, and it places the same row under the key or nothing (`Program.Local`). Being local is
computed along the program, one rule for each way to build one. Two local programs commute if
what the one places is no matter to the other (`Program.Local.commute`).
-/

namespace Paymaster

/-- Two tables have the same row under a key, and the last grants through some tokens were made
at the same times. -/
structure AccountTable.Agrees (key : Text) (tokens : Int → Prop) (t t' : AccountTable) :
    Prop where
  row : t'.row? key = t.row? key
  last : ∀ n, tokens n → t'.lastGrant n = t.lastGrant n

theorem AccountTable.Agrees.refl (key : Text) (tokens : Int → Prop) (t : AccountTable) :
    t.Agrees key tokens t :=
  ⟨rfl, fun _ _ => rfl⟩

namespace Program

variable {α β : Type}

/-! ## Off the ledger -/

/-- A program that asks nothing about accounts. -/
def OffLedger (p : Program α) : Prop :=
  p.Follows (fun _ r => r.concernsAccounts = false) fun _ _ => True

/-- The result of a program in a world without accounts. -/
def resultIn (world : World Unit) (p : Program α) : α :=
  (p.run world.answering ((), [])).1

theorem answering_other (world : World Unit) {r : Request} (other : r.concernsAccounts = false)
    (t : AccountTable) : world.answering r ((), t) = ((world.answer r ()).1, ((), t)) := by
  cases r <;> first | rfl | cases other

/-- What asks nothing about accounts has one result over all tables, and leaves them. -/
theorem OffLedger.run {p : Program α} (off : p.OffLedger) (world : World Unit)
    (t : AccountTable) : p.run world.answering ((), t) = (p.resultIn world, ((), t)) := by
  induction p with
  | done a => rfl
  | ask r next ih =>
    simp only [resultIn, Program.run, answering_other world off.1]
    exact ih _ ((off.2 _).mono (fun _ _ => id) fun _ _ => id)

/-! ## Local programs -/

variable {world : World Unit} {t : AccountTable} {key : Text} {tokens : Int → Prop}
  {places : Row → Prop}

/-- Over all tables that agree with a table, a program has the same result, and it places the
same row under the key, or nothing. -/
def Local (world : World Unit) (t : AccountTable) (key : Text) (tokens : Int → Prop)
    (places : Row → Prop) (p : Program α) : Prop :=
  ∃ result row?, (∀ row, row? = some row → row.address = key ∧ places row) ∧
    ∀ t', t.Agrees key tokens t' →
      p.run world.answering ((), t') = (result, ((), t'.placed row?))

theorem local_done (a : α) : (Program.done a).Local world t key tokens places :=
  ⟨a, none, nofun, fun _ _ => rfl⟩

/-- What asks nothing about accounts may come first. -/
theorem OffLedger.bind {p : Program β} {f : β → Program α} (off : p.OffLedger)
    (rest : (f (p.resultIn world)).Local world t key tokens places) :
    (p.bind f).Local world t key tokens places := by
  obtain ⟨result, row?, own, runs⟩ := rest
  refine ⟨result, row?, own, fun t' agrees => ?_⟩
  rw [run_bind, off.run]
  exact runs t' agrees

/-- What asks nothing about accounts may come last. -/
theorem Local.bind {p : Program β} {f : β → Program α}
    (first : p.Local world t key tokens places) (off : ∀ b, (f b).OffLedger) :
    (p.bind f).Local world t key tokens places := by
  obtain ⟨result, row?, own, runs⟩ := first
  refine ⟨(f result).resultIn world, row?, own, fun t' agrees => ?_⟩
  rw [run_bind, runs t' agrees, (off result).run]

theorem Local.map {p : Program β} (f : β → α) (first : p.Local world t key tokens places) :
    (f <$> p).Local world t key tokens places := by
  rw [map_eq_pure_bind]
  exact first.bind fun b => trivial

theorem Local.hold (source : LockSource) (address : Text) {p : Program α}
    (inside : p.Local world t key tokens places) :
    (hold source address p).Local world t key tokens places := by
  refine OffLedger.bind (p := request (.enterLock source address)) ⟨rfl, fun _ => trivial⟩ ?_
  cases (request (.enterLock source address)).resultIn world with
  | error fault => exact local_done _
  | ok u => exact inside.bind fun result => ⟨rfl, fun _ => trivial⟩

/-- The row under the key may be looked up. -/
theorem local_findAccount {address : Text}
    {next : Except StoreFault (Option Account) → Program α} (own : address.lower = key)
    (rest : (next ((world.receive (.findAccount address) ()).1.hear
      (t.findByAddress address))).Local world t key tokens places) :
    (Program.ask (.findAccount address) next).Local world t key tokens places := by
  obtain ⟨result, row?, puts, runs⟩ := rest
  refine ⟨result, row?, puts, fun t' agrees => ?_⟩
  have alike : t'.findByAddress address = t.findByAddress address := by
    simp only [AccountTable.findByAddress, own, agrees.row]
  simp only [Program.run, World.answering, alike]
  exact runs t' agrees

/-- What goes on alike with holders that were granted last at one time, goes on alike however
the answers about them are received. -/
theorem hear_alike {next : Except StoreFault (Option Account) → Program α}
    (alike : ∀ a b : Option Account, a.map Account.lastRequest = b.map Account.lastRequest →
      next (.ok a) = next (.ok b))
    {answer answer' : Except StoreFault (Option Account)}
    (last : answer.map (Option.map Account.lastRequest) =
      answer'.map (Option.map Account.lastRequest)) (reception : Reception) :
    next (reception.hear answer) = next (reception.hear answer') := by
  cases reception with
  | failed fault => rfl
  | unheard => rfl
  | heard =>
    cases answer with
    | error fault =>
      cases answer' with
      | error fault' =>
        cases last
        rfl
      | ok b => cases last
    | ok a =>
      cases answer' with
      | error fault' => cases last
      | ok b => exact alike a b (Except.ok.inj last)

/-- The holder of one of the tokens may be looked up, if only the time of its last grant has a
part in what comes then. -/
theorem local_findHolder {token : Int} {next : Except StoreFault (Option Account) → Program α}
    (asked : tokens token)
    (alike : ∀ a b : Option Account, a.map Account.lastRequest = b.map Account.lastRequest →
      next (.ok a) = next (.ok b))
    (rest : ∀ answer, (next answer).Local world t key tokens places) :
    (Program.ask (.findHolder token) next).Local world t key tokens places := by
  obtain ⟨result, row?, puts, runs⟩ :=
    rest ((world.receive (.findHolder token) ()).1.hear (t.findByToken token))
  refine ⟨result, row?, puts, fun t' agrees => ?_⟩
  have told := hear_alike alike (agrees.last token asked)
    (world.receive (.findHolder token) ()).1
  simp only [Program.run, World.answering, told]
  exact runs t' agrees

/-- The account of the key may be saved at the end. -/
theorem local_saveAccount {a : Account} {next : Except StoreFault Account → Program α}
    (own : a.address = key) (made : ∀ row, Row.ofAccount? a (a.version + 1) = some row → places row)
    (off : ∀ answer, (next answer).OffLedger) :
    (Program.ask (.saveAccount a) next).Local world t key tokens places := by
  let reception := (world.receive (.saveAccount a) ()).1
  obtain ⟨row?, from?, after⟩ := t.afterSave_eq a reception
  refine ⟨(next (reception.hear ((t.save a).map Prod.snd))).resultIn world, row?,
    fun row puts => ⟨?_, made row (from? row puts)⟩, fun t' agrees => ?_⟩
  · rw [(Row.of_ofAccount? (from? row puts)).1, own]
  · have same : t'.row? a.address = t.row? a.address := by rw [own, agrees.row]
    have answered : (t'.save a).map Prod.snd = (t.save a).map Prod.snd :=
      AccountTable.save_congr same
    simp only [Program.run, World.answering, answered]
    rw [(off _).run]
    exact congrArg (fun t'' => (_, ((), t''))) (after t' same)

/-! ## One after the other -/

/-- Two programs commute over a table: run one after the other, in either order, each has the
same result, and the tables are the same in the end. -/
structure Commute (world : World Unit) (t : AccountTable) (p : Program α) (q : Program β) :
    Prop where
  first : (p.run world.answering ((), t)).1 =
    (p.run world.answering (q.run world.answering ((), t)).2).1
  second : (q.run world.answering (p.run world.answering ((), t)).2).1 =
    (q.run world.answering ((), t)).1
  tables : AccountTable.Same (q.run world.answering (p.run world.answering ((), t)).2).2.2
    (p.run world.answering (q.run world.answering ((), t)).2).2.2

/-- Local programs commute if their keys differ and neither places a row that is a matter to the
other. -/
theorem Local.commute {key' : Text} {tokens' : Int → Prop} {places' : Row → Prop}
    {p : Program α} {q : Program β} (one : p.Local world t key tokens places)
    (other : q.Local world t key' tokens' places') (ne : key ≠ key')
    (keeps : ∀ row, row.address = key → places row → t.Agrees key' tokens' (t.place row))
    (keeps' : ∀ row, row.address = key' → places' row → t.Agrees key tokens (t.place row)) :
    Commute world t p q := by
  obtain ⟨result, row?, own, runs⟩ := one
  obtain ⟨result', row?', own', runs'⟩ := other
  have agrees : t.Agrees key' tokens' (t.placed row?) := by
    cases row? with
    | none => exact .refl _ _ _
    | some row => exact keeps row (own row rfl).1 (own row rfl).2
  have agrees' : t.Agrees key tokens (t.placed row?') := by
    cases row?' with
    | none => exact .refl _ _ _
    | some row => exact keeps' row (own' row rfl).1 (own' row rfl).2
  have alone := runs t (.refl _ _ _)
  have alone' := runs' t (.refl _ _ _)
  have after := runs' _ agrees
  have after' := runs _ agrees'
  refine ⟨?_, ?_, ?_⟩
  · rw [alone', after', alone]
  · rw [alone, after, alone']
  · rw [alone, alone', after, after']
    cases row? with
    | none => exact .refl _
    | some row =>
      cases row?' with
      | none => exact .refl _
      | some row' =>
        refine .place_comm ?_ t
        rw [(own row rfl).1, (own' row' rfl).1]
        exact ne

end Program

/-! ## Actions -/

namespace Action

variable {α β : Type} {world : World Unit} {t : AccountTable} {key : Text} {tokens : Int → Prop}
  {places : Row → Prop}

theorem local_bind {x : Action α} {f : α → Action β} (off : x.run.OffLedger)
    (rest : ∀ a, x.run.resultIn world = .ok a → (f a).run.Local world t key tokens places) :
    (x >>= f).run.Local world t key tokens places := by
  rw [ExceptT.run_bind]
  refine off.bind ?_
  cases ended : x.run.resultIn world with
  | ok a => exact rest a ended
  | error e => exact Program.local_done _

/-- What asks nothing about accounts may come last. -/
theorem local_bind_off {x : Action α} {f : α → Action β}
    (first : x.run.Local world t key tokens places) (off : ∀ a, (f a).run.OffLedger) :
    (x >>= f).run.Local world t key tokens places := by
  rw [ExceptT.run_bind]
  refine first.bind fun outcome => ?_
  cases outcome with
  | ok a => exact off a
  | error e => trivial

theorem local_ofExcept_bind {e : Except Failure α} {f : α → Action β}
    (rest : ∀ a, e = .ok a → (f a).run.Local world t key tokens places) :
    (ofExcept e >>= f).run.Local world t key tokens places :=
  local_bind trivial rest

theorem local_hold (source : LockSource) (address : Text) {body : Action α}
    (inside : body.run.Local world t key tokens places) :
    (hold source address body).run.Local world t key tokens places :=
  (inside.hold source address).map outcomeOfHold

end Action

end Paymaster

import Paymaster.Proofs.Ledger.Commits
import Paymaster.Proofs.Program.History

/-!
# A table in a world

A world is everything outside of the accounts table, with a state of its own: it answers all
other requests in any way, and it may keep the store from doing what it is asked or from being
heard (`World.answering`). Two tables that differ in the row of one address only
(`AccountTable.Adds`) answer look-ups and saves of every other address alike, and a save leaves
them so (`AccountTable.Adds.save`).
-/

namespace Paymaster

/-! ## Worlds -/

/-- How a request comes to the store and its answer comes back. -/
inductive Reception where
  | heard
  | failed (fault : StoreFault)
  /-- The store does what it is asked, but is not heard in time. -/
  | unheard

/-- The answer that is heard when the store gives one. -/
def Reception.hear {α : Type} : Reception → Except StoreFault α → Except StoreFault α
  | .heard, answer => answer
  | .failed fault, _ => .error fault
  | .unheard, _ => .error .timedOut

/-- Everything outside of the accounts table. What it does may depend on all that was asked. -/
structure World (ω : Type) where
  answer : (r : Request) → ω → r.Answer × ω
  receive : Request → ω → Reception × ω

/-- The table after a save, if the store is reached and the save is not refused. -/
def AccountTable.afterSave (t : AccountTable) (a : Account) : Reception → AccountTable
  | .failed _ => t
  | _ =>
    match t.save a with
    | .ok (t', _) => t'
    | .error _ => t

/-- Answers requests: the table those about accounts, the world all others. -/
def World.answering {ω : Type} (world : World ω) :
    (r : Request) → ω × AccountTable → r.Answer × (ω × AccountTable)
  | .findAccount address, (w, t) =>
    let received := world.receive (.findAccount address) w
    (received.1.hear (t.findByAddress address), (received.2, t))
  | .findHolder token, (w, t) =>
    let received := world.receive (.findHolder token) w
    (received.1.hear (t.findByToken token), (received.2, t))
  | .saveAccount a, (w, t) =>
    let received := world.receive (.saveAccount a) w
    (received.1.hear ((t.save a).map Prod.snd), (received.2, t.afterSave a received.1))
  | r, (w, t) =>
    let answered := world.answer r w
    (answered.1, (answered.2, t))

/-- A world that stands still: the clock shows one time, every lock is given, the node answers a
question always alike, nobody can sign, and calls are counted from the start at that time. -/
def World.still (now : Instant) (node : Bytes → Except NodeFault Bytes) : World Unit where
  answer r _ :=
    (match r with
      | .findAccount _ | .findHolder _ => .ok none
      | .saveAccount a => .ok a
      | .joinLocks => .shared
      | .enterLock _ _ => .ok ()
      | .leaveLock _ _ => ()
      | .clock => now
      | .callContract _ data => node data
      | .sign _ _ => none
      | .findKey _ => .ok none
      | .recordCall method code? => (({} : CallStats).recordCall now method code?).2
      | .recordSponsorship _ => ()
      | .recordGrant => ()
      | .summarize => (({} : CallStats).summarize now).2
      | .pingDatabase => true
      | .pingNode => true
      | .pingLockServer => none, ())
  receive _ _ := (.heard, ())

namespace AccountTable

/-! ## One more row -/

/-- A table with one more row than another: the row of an address that the other does not
have. All other addresses have the same row in both. -/
structure Adds (key : Text) (row : Row) (t t' : AccountTable) : Prop where
  absent : t.row? key = none
  present : t'.row? key = some row
  others : ∀ address, address ≠ key → t.row? address = t'.row? address

variable {key : Text} {row : Row} {t t' : AccountTable}

theorem Adds.findByAddress (adds : Adds key row t t') {address : Text}
    (other : address.lower ≠ key) : t.findByAddress address = t'.findByAddress address := by
  simp only [AccountTable.findByAddress, adds.others _ other]

/-- The account that is found is one of the address that was asked for. -/
theorem lower_of_findByAddress {address : Text} {b : Account}
    (read : t.findByAddress address = .ok (some b)) : b.address = address.lower.lower := by
  unfold AccountTable.findByAddress at read
  split at read
  · cases stands : t.row? address.lower with
    | none =>
      rw [stands] at read
      cases read
    | some r =>
      rw [stands, accountOf] at read
      cases account : r.toAccount? with
      | none =>
        rw [account] at read
        cases read
      | some a =>
        rw [account] at read
        cases read
        rw [(Row.version_of_toAccount? account).2.1, (mem_of_row? stands).2]
  · cases read

/-- A save has the same answer on two tables with the same row at its address. -/
theorem save_congr {a : Account} (same : t.row? a.address = t'.row? a.address) :
    (t.save a).map Prod.snd = (t'.save a).map Prod.snd := by
  unfold AccountTable.save
  rw [same]
  repeat' split
  all_goals rfl

theorem Adds.save (adds : Adds key row t t') {a : Account} (other : a.address ≠ key) :
    (t.save a).map Prod.snd = (t'.save a).map Prod.snd ∧
      ∀ reception, Adds key row (t.afterSave a reception) (t'.afterSave a reception) := by
  have alike := save_congr (adds.others _ other)
  refine ⟨alike, fun reception => ?_⟩
  have done : Adds key row
      (match t.save a with | .ok (t, _) => t | .error _ => t)
      (match t'.save a with | .ok (t', _) => t' | .error _ => t') := by
    cases verdict : t.save a with
    | error fault =>
      cases verdict' : t'.save a with
      | error fault' => exact adds
      | ok saved' => simp [verdict, verdict', Except.map] at alike
    | ok saved =>
      cases verdict' : t'.save a with
      | error fault' => simp [verdict, verdict', Except.map] at alike
      | ok saved' =>
        obtain ⟨s, b⟩ := saved
        obtain ⟨s', b'⟩ := saved'
        obtain ⟨first, -⟩ := saved_of_save verdict
        obtain ⟨second, -⟩ := saved_of_save verdict'
        refine ⟨?_, ?_, fun address ne => ?_⟩
        · rw [first.others key (Ne.symm other), adds.absent]
        · rw [second.others key (Ne.symm other), adds.present]
        · by_cases here : address = a.address
          · obtain ⟨r, made, stands⟩ := first.row
            obtain ⟨r', made', stands'⟩ := second.row
            rw [here, stands, stands', ← made, made']
          · rw [first.others address here, second.others address here, adds.others address ne]
  cases reception with
  | failed fault => exact adds
  | heard => exact done
  | unheard => exact done

end AccountTable

end Paymaster

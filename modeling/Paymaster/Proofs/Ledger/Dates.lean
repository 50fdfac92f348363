import Paymaster.Proofs.Ledger.Holders
import Paymaster.Proofs.Program.Terms

/-!
# Dates of the ledger

While clocks show the years 1970 to 9998, every grant is dated in these years
(`AccountTable.Dated`), so that the end of a window and the start of a period of retention are
instants (`Account.rateLimited_of_dated`, `Exchange.InTime.counted`). As terms
(`Terms.inTime`): who is told only such dates saves only such dates. A table with such dates
tells no others and keeps to them (`AccountTable.Dated.answers`), also within a world whose
clocks show these years (`World.InTime.answering`).
-/

namespace Paymaster

/-! ## Instants -/

namespace Instant

/-- An instant of the years 1970 to 9998. -/
def Usual (t : Int) : Prop :=
  0 ≤ t ∧ t ≤ last - 365 * day

instance (t : Int) : Decidable (Usual t) :=
  inferInstanceAs (Decidable (_ ∧ _))

example : civil 0 = (1970, 1, 1) ∧ civil ((last - 365 * day) / day) = (9998, 12, 31) := by
  decide

/-- A day after a usual instant is an instant, and so is a day before it. -/
theorem Usual.inRange {t : Int} (usual : Usual t) (micros : Int) (above : -day ≤ micros)
    (below : micros ≤ day) : inRange (t + micros) = .ok (t + micros) := by
  obtain ⟨late, early⟩ := usual
  have inside : first ≤ t + micros ∧ t + micros ≤ last := by
    show (-62135596800000000 : Int) ≤ t + micros ∧ t + micros ≤ 253402300799999999
    simp only [last, day, hour, second] at early above below
    omega
  exact if_pos inside

end Instant

/-! ## Accounts -/

/-- An account that was granted at a usual instant, if at all. -/
def Account.Dated (a : Account) : Prop :=
  ∀ t, a.lastRequest = some t → Instant.Usual t

/-- A window of at most a day has an end for every account. -/
theorem Account.rateLimited_of_dated {a : Account} (dated : a.Dated) (now : Instant)
    {window : Period} (forward : 0 ≤ window.micros) (short : window.micros ≤ Instant.day) :
    ∃ limited, a.rateLimited now window = .ok limited := by
  unfold rateLimited
  cases time : a.lastRequest with
  | none => exact ⟨false, rfl⟩
  | some t =>
    have day : 0 < Instant.day := by decide
    have free := (dated t time).inRange window.micros (by omega) short
    simp only [Instant.after, free]
    exact ⟨_, rfl⟩

namespace AccountTable

/-- A table whose accounts were granted at usual instants. -/
def Dated (t : AccountTable) : Prop :=
  ∀ r ∈ t, ∀ x, r.lastRequest = some x → Instant.Usual x

theorem dated_nil : Dated [] :=
  fun _ member => (List.not_mem_nil member).elim

variable {t t' : AccountTable}

theorem Dated.saved (dated : t.Dated) {a : Account} (given : a.Dated) (saved : t.Saved a t') :
    t'.Dated := by
  intro r member
  rcases (saved.members r).mp member with made | ⟨before, -⟩
  · rw [(Row.of_ofAccount? made).2.2.2.2.1]
    exact given
  · exact dated r before

theorem Dated.findByAddress (dated : t.Dated) {address : Text} {a : Account}
    (read : t.findByAddress address = .ok (some a)) : a.Dated := by
  unfold AccountTable.findByAddress at read
  split at read
  · cases stands : t.row? address.lower with
    | none =>
      rw [stands] at read
      cases read
    | some r =>
      rw [stands, accountOf] at read
      cases account : r.toAccount? with
      | none =>
        rw [account] at read
        cases read
      | some a' =>
        rw [account] at read
        cases read
        intro x time
        rw [(Row.version_of_toAccount? account).2.2.1] at time
        exact dated r (mem_of_row? stands).1 x time
  · cases read

theorem Dated.findByToken (dated : t.Dated) {token : Int} {a : Account}
    (read : t.findByToken token = .ok (some a)) : a.Dated := by
  obtain ⟨r, linked, time⟩ := linked_of_holder read
  intro x given
  exact dated r linked.1 x (time.trans given)

end AccountTable

/-! ## Exchanges -/

namespace Exchange

/-- An exchange while all clocks show usual instants: the time that is told is one, and a call
is counted at one by statistics that keep the times of a day. -/
def InTime : Exchange → Prop
  | ⟨.clock, now⟩ => Instant.Usual now
  | ⟨.recordCall method code?, answer⟩ => ∃ (stats : CallStats) (now : Instant),
    stats.retention = 24 ∧ Instant.Usual now ∧ answer = (stats.recordCall now method code?).2
  | _ => True

/-- No account is told but one that was granted at a usual instant. -/
def TellsDated : Exchange → Prop
  | ⟨.findAccount _, answer⟩ => ∀ a, answer = .ok (some a) → a.Dated
  | ⟨.findHolder _, answer⟩ => ∀ a, answer = .ok (some a) → a.Dated
  | _ => True

/-- A call is counted without a fault. -/
theorem InTime.counted {method : Text} {code? : Option ErrorCode} {answer : Except TimeFault Unit}
    (inTime : InTime ⟨.recordCall method code?, answer⟩) : answer = .ok () := by
  obtain ⟨stats, now, retention, usual, rfl⟩ := inTime
  have kept : (stats.counted now method code?).retention = 24 := by
    rw [← retention]
    cases code? <;> rfl
  have period : ∃ p, Period.ofHours 24 = .ok p ∧ p.micros = Instant.day := ⟨.day, by decide, rfl⟩
  obtain ⟨p, made, day⟩ := period
  have start := usual.inRange (-Instant.day) (Int.le_refl _) (by decide)
  have before : Instant.before now p = .ok (now + -Instant.day) := by
    rw [Instant.before, day]
    exact start
  simp only [CallStats.recordCall, CallStats.pruned, kept, made, bind, Except.bind, before]
  rfl

end Exchange

/-- No account is saved but one that was granted at a usual instant. -/
def Request.SavesDated : Request → Prop
  | .saveAccount a => a.Dated
  | _ => True

/-- Only usual dates are told, and only usual dates are saved. -/
def Terms.inTime : Terms where
  told x := x.InTime ∧ x.TellsDated
  asks := Request.SavesDated

/-- A dated table tells dated accounts, and is a dated one afterwards. -/
theorem AccountTable.Dated.answers {t t' : AccountTable} (dated : t.Dated) {r : Request}
    {answer : r.Answer} (asked : Terms.inTime.asks r) (answered : t.Answers r answer t') :
    Exchange.TellsDated ⟨r, answer⟩ ∧ t'.Dated := by
  cases answered with
  | found read =>
    refine ⟨fun a told => dated.findByAddress (read.trans ?_), dated⟩
    exact told
  | holder read =>
    refine ⟨fun a told => dated.findByToken (read.trans ?_), dated⟩
    exact told
  | notFound fault => exact ⟨(fun a told => by cases told), dated⟩
  | noHolder fault => exact ⟨(fun a told => by cases told), dated⟩
  | saved done => exact ⟨trivial, dated.saved asked (saved_of_save done).1⟩
  | unheard done => exact ⟨trivial, dated.saved asked (saved_of_save done).1⟩
  | elsewhere answer other =>
    refine ⟨?_, dated⟩
    cases r with
    | findAccount _ => cases other
    | findHolder _ => cases other
    | _ => trivial
  | _ => exact ⟨trivial, dated⟩

/-- A world whose clocks show usual instants. -/
def World.InTime {ω : Type} (world : World ω) : Prop :=
  ∀ r w, Exchange.InTime ⟨r, (world.answer r w).1⟩

theorem World.inTime_still {now : Int} (usual : Instant.Usual now)
    (node : Bytes → Except NodeFault Bytes) : (still now node).InTime := by
  intro r _
  cases r with
  | clock => exact usual
  | recordCall method code? => exact ⟨{}, now, rfl, usual, rfl⟩
  | _ => trivial

/-- What is heard is what was answered. -/
theorem Reception.eq_ok_of_hear {α : Type} {reception : Reception} {answer : Except StoreFault α}
    {a : α} (heard : reception.hear answer = .ok a) : answer = .ok a := by
  cases reception with
  | heard => exact heard
  | failed fault => cases heard
  | unheard => cases heard

/-- In such a world a dated table tells usual dates, and is a dated one afterwards. -/
theorem World.InTime.answering {ω : Type} {world : World ω} (inTime : world.InTime) (r : Request)
    (s : ω × AccountTable) (dated : s.2.Dated) (asked : Terms.inTime.asks r) :
    Terms.inTime.told ⟨r, (world.answering r s).1⟩ ∧ (world.answering r s).2.2.Dated := by
  obtain ⟨w, t⟩ := s
  cases r with
  | findAccount address =>
    exact ⟨⟨trivial, fun a heard => dated.findByAddress (Reception.eq_ok_of_hear heard)⟩, dated⟩
  | findHolder token =>
    exact ⟨⟨trivial, fun a heard => dated.findByToken (Reception.eq_ok_of_hear heard)⟩, dated⟩
  | saveAccount a =>
    refine ⟨⟨trivial, trivial⟩, ?_⟩
    have done : (t.afterSave a .heard).Dated := by
      unfold AccountTable.afterSave
      cases verdict : t.save a with
      | error fault => exact dated
      | ok saved => exact dated.saved asked (AccountTable.saved_of_save verdict).1
    show (t.afterSave a _).Dated
    cases (world.receive (.saveAccount a) w).1 with
    | failed fault => exact dated
    | heard => exact done
    | unheard => exact done
  | _ => exact ⟨⟨inTime _ w, trivial⟩, dated⟩

end Paymaster

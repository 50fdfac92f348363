import Paymaster.Proofs.Engine.Allowance
import Paymaster.Proofs.Ledger.Saving

/-!
# Holders of a token

A look-up for a token finds, of the rows that are linked to it, one with the latest grant
time (`AccountTable.holder_of_linked`). So a grant through the token is allowed exactly if the
window of every linked row is over (`Engine.tokenAllowance_iff`). Rows that are not linked to
the token any more have no part in it.
-/

namespace Paymaster

namespace AccountTable

/-! ## The latest row -/

theorem earlier_some {x y : Instant} : earlier (some x) (some y) = false ↔ y ≤ x := by
  simp [earlier]

theorem earlier_self (a : Option Instant) : earlier a a = false := by
  cases a with
  | none => rfl
  | some x => exact earlier_some.mpr (Int.le_refl x)

theorem earlier_trans {a b c : Option Instant} (first : earlier a b = false)
    (second : earlier b c = false) : earlier a c = false := by
  cases c with
  | none => cases a <;> rfl
  | some z =>
    cases b with
    | none => cases second
    | some y =>
      cases a with
      | none => cases first
      | some x =>
        rw [earlier_some] at first second ⊢
        exact Int.le_trans second first

theorem earlier_asymm {a b : Option Instant} (before : earlier a b = true) :
    earlier b a = false := by
  cases a with
  | none => cases b <;> rfl
  | some x =>
    cases b with
    | none => cases before
    | some y =>
      have less : x < y := by simpa [earlier] using before
      exact earlier_some.mpr (Int.le_of_lt less)

theorem latest_isSome {rows : List Row} {r : Row} (member : r ∈ rows) :
    ∃ best, latest rows = some best := by
  cases rows with
  | nil => cases member
  | cons r' rest =>
    unfold latest
    split
    · exact ⟨_, rfl⟩
    · split <;> exact ⟨_, rfl⟩

/-- The latest row is one of the rows, and none of them is later. -/
theorem latest_spec {rows : List Row} {best : Row} (found : latest rows = some best) :
    best ∈ rows ∧ ∀ r ∈ rows, earlier best.lastRequest r.lastRequest = false := by
  induction rows generalizing best with
  | nil => cases found
  | cons r rest ih =>
    unfold latest at found
    cases later : latest rest with
    | none =>
      rw [later] at found
      cases found
      refine ⟨by simp, fun r' member => ?_⟩
      rcases List.mem_cons.mp member with rfl | inRest
      · exact earlier_self _
      · obtain ⟨best, some⟩ := latest_isSome inRest
        rw [later] at some
        cases some
    | some b =>
      rw [later] at found
      obtain ⟨member, most⟩ := ih later
      by_cases before : earlier r.lastRequest b.lastRequest = true
      · simp only [if_pos before] at found
        cases found
        refine ⟨by simp [member], fun r' member' => ?_⟩
        rcases List.mem_cons.mp member' with rfl | inRest
        · exact earlier_asymm before
        · exact most r' inRest
      · simp only [if_neg before] at found
        cases found
        refine ⟨by simp, fun r' member' => ?_⟩
        rcases List.mem_cons.mp member' with rfl | inRest
        · exact earlier_self _
        · exact earlier_trans (by simpa using before) (most r' inRest)

/-! ## Holders -/

/-- A row of the table is linked to a token. -/
def Linked (t : AccountTable) (token : Int) (r : Row) : Prop :=
  r ∈ t ∧ Integer.write? token = some r.vipToken

theorem findByToken_eq {t : AccountTable} {token : Int} {text : Text}
    (written : Integer.write? token = some text) :
    t.findByToken token = accountOf (latest (t.filter fun r => r.vipToken = text)) := by
  unfold findByToken
  rw [written]

/-- The holder that a look-up tells was granted no earlier than any linked row. -/
theorem holder_of_linked {t : AccountTable} {token : Int} {holder? : Option Account}
    (read : t.findByToken token = .ok holder?) {r : Row} (linked : t.Linked token r)
    {last : Int} (time : r.lastRequest = some last) :
    ∃ holder x, holder? = some holder ∧ holder.lastRequest = some x ∧ last ≤ x := by
  obtain ⟨inTable, text⟩ := linked
  have member : r ∈ t.filter fun r' => r'.vipToken = r.vipToken := by simp [inTable]
  obtain ⟨best, found⟩ := latest_isSome member
  obtain ⟨-, most⟩ := latest_spec found
  rw [findByToken_eq text, found, accountOf] at read
  cases account : best.toAccount? with
  | none =>
    rw [account] at read
    cases read
  | some holder =>
    rw [account] at read
    cases read
    have later := most r member
    rw [time] at later
    have same := (Row.version_of_toAccount? account).2.2.1
    cases known : best.lastRequest with
    | none =>
      rw [known] at later
      cases later
    | some x =>
      rw [known] at later same
      refine ⟨holder, x, rfl, same, ?_⟩
      simpa [earlier] using later

/-- The holder that a look-up tells is a linked row. -/
theorem linked_of_holder {t : AccountTable} {token : Int} {holder : Account}
    (read : t.findByToken token = .ok (some holder)) :
    ∃ r, t.Linked token r ∧ r.lastRequest = holder.lastRequest := by
  cases written : Integer.write? token with
  | none =>
    unfold findByToken at read
    rw [written] at read
    cases read
  | some text =>
    rw [findByToken_eq written] at read
    cases found : latest (t.filter fun r => r.vipToken = text) with
    | none =>
      rw [found] at read
      cases read
    | some best =>
      rw [found, accountOf] at read
      cases account : best.toAccount? with
      | none =>
        rw [account] at read
        cases read
      | some a =>
        rw [account] at read
        cases read
        have member := (latest_spec found).1
        rw [List.mem_filter] at member
        refine ⟨best, ⟨member.1, ?_⟩, (Row.version_of_toAccount? account).2.2.1.symm⟩
        have same : best.vipToken = text := by simpa using member.2
        rw [same, written]

end AccountTable

/-! ## Windows -/

/-- An account whose window is over was granted that long ago. -/
theorem Account.window_over {a : Account} {now : Int} {window : Period}
    (free : a.rateLimited now window = .ok false) {last : Int}
    (time : a.lastRequest = some last) : last + window.micros ≤ now := by
  unfold rateLimited at free
  rw [time] at free
  unfold Instant.after Instant.inRange at free
  by_cases inside : Instant.first ≤ last + window.micros ∧ last + window.micros ≤ Instant.last
  · simp only [if_pos inside] at free
    have ended : decide (now < last + window.micros) = false := Except.ok.inj free
    exact Int.not_lt.mp (of_decide_eq_false ended)
  · simp only [if_neg inside] at free
    cases free

theorem Account.not_rateLimited {a : Account} {now : Int} {window : Period}
    (forward : 0 ≤ window.micros) (valid : now ≤ Instant.last)
    (ended : ∀ last : Int, a.lastRequest = some last →
      Instant.first ≤ last ∧ last + window.micros ≤ now) :
    a.rateLimited now window = .ok false := by
  unfold rateLimited
  cases time : a.lastRequest with
  | none => rfl
  | some last =>
    obtain ⟨early, passed⟩ := ended last time
    have inside : Instant.first ≤ last + window.micros ∧ last + window.micros ≤ Instant.last :=
      ⟨Int.le_trans early (Int.le_add_of_nonneg_right forward), Int.le_trans passed valid⟩
    simp only [Instant.after, Instant.inRange, if_pos inside]
    show Except.ok (decide (now < last + window.micros)) = Except.ok false
    rw [decide_eq_false (Int.not_lt.mpr passed)]

namespace Engine

/-- A grant through a token is allowed exactly if the window of every row that is linked to
the token is over. -/
theorem tokenAllowance_iff {t : AccountTable} {tiers : Tiers} {token : Int}
    {holder? : Option Account} {key : Text} {now : Int}
    (read : t.findByToken token = .ok holder?) (forward : 0 ≤ tiers.window.micros)
    (valid : now ≤ Instant.last)
    (early : ∀ r, t.Linked token r → ∀ last : Int, r.lastRequest = some last →
      Instant.first ≤ last) :
    tokenAllowance tiers holder? key now = .ok tiers.vip ↔
      ∀ r, t.Linked token r → ∀ last : Int, r.lastRequest = some last →
        last + tiers.window.micros ≤ now := by
  rw [tokenAllowance_eq_ok]
  constructor
  · intro given r linked last time
    rcases given with ⟨-, free⟩
    obtain ⟨holder, x, rfl, known, le⟩ := AccountTable.holder_of_linked read linked time
    have ended := Account.window_over (free holder rfl) known
    exact Int.le_trans (Int.add_le_add_right le _) ended
  · intro ended
    refine ⟨rfl, ?_⟩
    intro holder same
    subst same
    obtain ⟨r, linked, same⟩ := AccountTable.linked_of_holder read
    refine Account.not_rateLimited forward valid fun last time => ?_
    rw [← same] at time
    exact ⟨early r linked last time, ended r linked last time⟩

end Engine

end Paymaster

import Paymaster.Entries
import Paymaster.Ledger.Table

/-!
# Accounts in a map

A store of accounts as simple as can be: accounts by the lower-case texts of their addresses,
with no rows, no decimal texts and no sizes. It takes the same calls as the accounts table
(`StoreCall`), and both keep a list of what they reply (`StoreCall.replies`).
-/

namespace Paymaster

/-- The time of the last grant; an account without one counts as granted before all others. -/
def Account.granted (a : Account) : Instant :=
  a.lastRequest.getD .first

/-- Accounts by the lower-case texts of their addresses, in the order of their first saves. -/
abbrev AccountMap : Type := Entries Text Account

namespace AccountMap

/-- The version of the account of an address; zero if there is none. -/
def version (m : AccountMap) (address : Text) : Int :=
  ((m.value? address).map Account.version).getD 0

/-- The account after a save. -/
def saved (a : Account) : Account :=
  { a with version := a.version + 1 }

/-- The account with the latest grant; of equal ones the first. -/
def latest : List Account → Option Account
  | [] => none
  | a :: rest =>
    match latest rest with
    | none => some a
    | some best => if a.granted < best.granted then some best else some a

/-- The accounts that were granted through a token. -/
def holders (m : AccountMap) (token : Int) : List Account :=
  (m.map Prod.snd).filter fun a => a.vipToken = token

theorem latest_eq_none_iff {accounts : List Account} : latest accounts = none ↔ accounts = [] := by
  cases accounts with
  | nil => exact ⟨fun _ => rfl, fun _ => rfl⟩
  | cons a rest =>
    unfold latest
    split
    · simp
    · split <;> simp

/-- An account with the latest grant is one of the accounts, and none of them is later. -/
theorem latest_spec {accounts : List Account} {best : Account}
    (found : latest accounts = some best) :
    best ∈ accounts ∧ ∀ a ∈ accounts, a.granted ≤ best.granted := by
  induction accounts generalizing best with
  | nil => cases found
  | cons a rest ih =>
    unfold latest at found
    cases later : latest rest with
    | none =>
      rw [later] at found
      cases found
      rw [latest_eq_none_iff.mp later]
      simp
    | some b =>
      rw [later] at found
      obtain ⟨member, most⟩ := ih later
      by_cases before : a.granted < b.granted
      · simp only [if_pos before] at found
        cases found
        refine ⟨List.mem_cons_of_mem _ member, List.forall_mem_cons.mpr ⟨?_, most⟩⟩
        exact Int.le_of_lt before
      · simp only [if_neg before] at found
        cases found
        refine ⟨List.mem_cons_self, List.forall_mem_cons.mpr ⟨Int.le_refl _, fun c other => ?_⟩⟩
        exact Int.le_trans (most c other) (Int.not_lt.mp before)

end AccountMap

/-! ## Calls -/

/-- A call of a store of accounts. -/
inductive StoreCall where
  | save (a : Account)
  | find (address : Text)
  | findHolder (token : Int)

/-- What a store replies: an account or none, or why there is no reply. -/
abbrev StoreReply : Type := Except StoreFault (Option Account)

/-- The reply to a call, and the map afterwards. -/
def AccountMap.perform (m : AccountMap) : StoreCall → StoreReply × AccountMap
  | .save a =>
    if m.version a.address = a.version then (.ok (some (saved a)), m.put a.address (saved a))
    else (.error (.stale a.address), m)
  | .find address => (.ok (m.value? address.lower), m)
  | .findHolder token => (.ok (latest (m.holders token)), m)

/-- The reply to a call, and the table afterwards. -/
def AccountTable.perform (t : AccountTable) : StoreCall → StoreReply × AccountTable
  | .save a =>
    match t.save a with
    | .ok (t', b) => (.ok (some b), t')
    | .error fault => (.error fault, t)
  | .find address => (t.findByAddress address, t)
  | .findHolder token => (t.findByToken token, t)

/-- A sequence of calls with the replies, and the store that they leave. -/
def StoreCall.replies {σ : Type} (perform : σ → StoreCall → StoreReply × σ) (s : σ) :
    List StoreCall → List (StoreCall × StoreReply) × σ
  | [] => ([], s)
  | call :: rest =>
    let performed := perform s call
    let others := replies perform performed.2 rest
    ((call, performed.1) :: others.1, others.2)

end Paymaster

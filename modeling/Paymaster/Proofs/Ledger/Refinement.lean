import Mathlib.Data.List.Forall2
import Paymaster.Proofs.Ledger.AccountMap
import Paymaster.Proofs.Ledger.Holders
import Paymaster.Proofs.Text.Lowering

/-!
# The table refines the map

The accounts table stands in for a map of accounts (`Represents`): row for entry, each row the
decimal texts of its account. A call keeps that and gets replies that agree (`Agrees`), so all
sequences of calls do (`StoreCall.refines_map`), as long as the calls fit what can be stored
(`StoreCall.Fits`). Past that the two part: a version that is too wide and an address without
a form in UTF-8 fail in the table and not in the map (`StoreCall.parts_from_map`).
-/

namespace Paymaster

/-! ## Calls that fit -/

/-- An account as it is built outside: the address in lower case, the decimal texts of the
balances and of the token not too long, the last grant in the years that there are. -/
structure Account.Written (a : Account) : Prop where
  lowered : ∃ t : Text, a.address = t.lower
  remaining : (Integer.write? a.remainingGas).isSome
  used : (Integer.write? a.usedGas).isSome
  token : (Integer.write? a.vipToken).isSome
  granted : ∀ x, a.lastRequest = some x → Instant.first ≤ x

/-- What a row has room for: an address that has a form in UTF-8 and a version of 64 bits. -/
structure Account.Fits (a : Account) : Prop extends a.Written where
  storable : Row.storable a.address = true
  version : Row.fitsVersion a.version = true

/-- Calls of which the numbers have decimal texts. -/
def StoreCall.Written : StoreCall → Prop
  | .save a => a.Written
  | .find _ => True
  | .findHolder token => (Integer.write? token).isSome

/-- Calls within what can be stored. -/
def StoreCall.Fits : StoreCall → Prop
  | .save a => a.Fits
  | .find address => Row.storable address.lower = true
  | .findHolder token => (Integer.write? token).isSome

theorem Account.Fits.lower {a : Account} (fits : a.Fits) : a.address.lower = a.address := by
  obtain ⟨t, same⟩ := fits.lowered
  rw [same, Text.lower_lower]

/-- An account that fits has a row under every version. -/
theorem Account.Fits.row {a : Account} (fits : a.Fits) (version : Int) :
    ∃ row, Row.ofAccount? a version = some row := by
  obtain ⟨remaining, remainingWritten⟩ := Option.isSome_iff_exists.mp fits.remaining
  obtain ⟨used, usedWritten⟩ := Option.isSome_iff_exists.mp fits.used
  obtain ⟨token, tokenWritten⟩ := Option.isSome_iff_exists.mp fits.token
  refine Option.isSome_iff_exists.mp ?_
  simp [Row.ofAccount?, fits.storable, remainingWritten, usedWritten, tokenWritten]

/-! ## Representation -/

/-- An entry of a map and the row in its place. -/
structure Keeps (e : Text × Account) (row : Row) : Prop where
  key : e.1 = e.2.address
  lower : e.2.address.lower = e.2.address
  row : Row.ofAccount? e.2 e.2.version = some row
  version : 1 ≤ e.2.version
  granted : ∀ x, e.2.lastRequest = some x → Instant.first ≤ x

/-- A map and the table in its place: row for entry, in one order. -/
structure Represents (m : AccountMap) (t : AccountTable) : Prop where
  rows : List.Forall₂ Keeps m t
  nodup : (Entries.keys m).Nodup

theorem represents_nil : Represents [] [] :=
  ⟨.nil, List.nodup_nil⟩

theorem Keeps.address {e : Text × Account} {row : Row} (keeps : Keeps e row) :
    row.address = e.1 := by
  rw [keeps.key, (Row.of_ofAccount? keeps.row).1]

theorem Keeps.toAccount? {e : Text × Account} {row : Row} (keeps : Keeps e row) :
    row.toAccount? = some e.2 :=
  Row.toAccount?_of_ofAccount? keeps.lower keeps.row

theorem Keeps.rowVersion {e : Text × Account} {row : Row} (keeps : Keeps e row) :
    row.version = e.2.version :=
  (Row.of_ofAccount? keeps.row).2.2.2.2.2.2

/-- Under a key stand an entry and its row, or nothing in either. -/
theorem found_of_rows {m : AccountMap} {t : AccountTable} (rows : List.Forall₂ Keeps m t)
    (key : Text) : m.value? key = none ∧ t.row? key = none ∨
      ∃ a row, m.value? key = some a ∧ t.row? key = some row ∧ Keeps (key, a) row := by
  induction rows with
  | nil => exact .inl ⟨rfl, rfl⟩
  | @cons e row m t keeps rows ih =>
    obtain ⟨k, a⟩ := e
    have address : row.address = k := keeps.address
    by_cases here : key = k
    · subst here
      exact .inr ⟨a, row, List.lookup_cons_self, by simp [AccountTable.row?, address], keeps⟩
    · have there : ¬ row.address = key := fun same => here (same.symm.trans address)
      rw [Entries.value?, Entries.lookup_cons_of_ne here]
      simpa [AccountTable.row?, there] using ih

/-! ## Saves -/

/-- Rows of other addresses stay when a row is replaced. -/
theorem replace_of_absent {m : AccountMap} {t : AccountTable} (rows : List.Forall₂ Keeps m t)
    {row : Row} (absent : row.address ∉ Entries.keys m) : t.replace row = t := by
  induction rows with
  | nil => rfl
  | @cons e old m t keeps rows ih =>
    obtain ⟨here, rest⟩ := not_or.mp (fun given => absent (List.mem_cons.mpr given))
    have other : ¬ old.address = row.address := fun same =>
      here (same.symm.trans keeps.address)
    have tail := ih rest
    unfold AccountTable.replace at tail ⊢
    rw [List.map_cons, if_neg other, tail]

/-- An entry and its row are replaced in the same place. -/
theorem rows_replace {m : AccountMap} {t : AccountTable} (rows : List.Forall₂ Keeps m t)
    (nodup : (Entries.keys m).Nodup) {key : Text} {a : Account} {row : Row}
    (keeps : Keeps (key, a) row) (present : key ∈ Entries.keys m) :
    List.Forall₂ Keeps (m.put key a) (t.replace row) := by
  have address : row.address = key := keeps.address
  induction rows with
  | nil => cases present
  | @cons e old m t own rows ih =>
    obtain ⟨k, b⟩ := e
    obtain ⟨fresh, nodup⟩ := List.nodup_cons.mp nodup
    have oldAddress : old.address = k := own.address
    by_cases here : k = key
    · subst here
      have rest : AccountTable.replace t row = t := replace_of_absent rows (address ▸ fresh)
      unfold AccountTable.replace at rest
      rw [Entries.put, Entries.alter, if_pos (beq_self_eq_true k), AccountTable.replace,
        List.map_cons, if_pos (oldAddress.trans address.symm), rest]
      exact .cons keeps rows
    · have unequal : (k == key) = false := by simpa using here
      have other : ¬ old.address = row.address := fun same =>
        here (oldAddress.symm.trans (same.trans address))
      have later : key ∈ Entries.keys m := by
        rcases List.mem_cons.mp present with same | later
        · exact (here same.symm).elim
        · exact later
      have tail := ih nodup later
      unfold Entries.put at tail ⊢
      unfold AccountTable.replace at tail ⊢
      rw [Entries.alter, if_neg (by simp [unequal]), List.map_cons, if_neg other]
      exact .cons own tail

theorem keeps_saved {a : Account} (fits : a.Fits) (counted : 0 ≤ a.version) {row : Row}
    (made : Row.ofAccount? a (a.version + 1) = some row) :
    Keeps (a.address, AccountMap.saved a) row := by
  refine ⟨rfl, fits.lower, ?_, ?_, fits.granted⟩
  · exact made
  · show 1 ≤ a.version + 1
    omega

theorem Represents.keys_put {m : AccountMap} {t : AccountTable} (rep : Represents m t)
    (key : Text) (a : Account) : (Entries.keys (m.put key a)).Nodup :=
  Entries.nodup_alter rep.nodup _ _

/-- A save on the version that the map has is done in both. -/
theorem Represents.save_done {m : AccountMap} {t : AccountTable} (rep : Represents m t)
    {a : Account} (fits : a.Fits) (current : m.version a.address = a.version) :
    ∃ t', t.save a = .ok (t', AccountMap.saved a) ∧
      Represents (m.put a.address (AccountMap.saved a)) t' := by
  obtain ⟨row, made⟩ := fits.row (a.version + 1)
  rcases found_of_rows rep.rows a.address with ⟨absent, stands⟩ | ⟨b, old, known, stands, own⟩
  · have fresh : a.version = 0 := by simpa [AccountMap.version, absent] using current.symm
    have keeps := keeps_saved fits (by omega) made
    have made' : Row.ofAccount? a 1 = some row := by simpa [fresh] using made
    refine ⟨t ++ [row], ?_, ?_, rep.keys_put _ _⟩
    · simp [AccountTable.save, fresh, made', stands, AccountMap.saved]
    · rw [Entries.put_of_not_mem (Entries.not_mem_keys_of_lookup absent)]
      exact List.rel_append rep.rows (.cons keeps .nil)
  · have same : b.version = a.version := by simpa [AccountMap.version, known] using current
    have counted : 1 ≤ b.version := own.version
    have keeps := keeps_saved fits (by omega) made
    have unmoved : old.version = a.version := own.rowVersion.trans same
    have versioned : a.version ≠ 0 := by omega
    have present : a.address ∈ Entries.keys m :=
      List.mem_map.mpr ⟨_, Entries.mem_of_lookup known, rfl⟩
    refine ⟨t.replace row, ?_, rows_replace rep.rows rep.nodup keeps present, rep.keys_put _ _⟩
    simp [AccountTable.save, versioned, fits.version, made, stands, unmoved, AccountMap.saved]

/-- A save on any other version is refused as stale. -/
theorem Represents.save_stale {m : AccountMap} {t : AccountTable} (rep : Represents m t)
    {a : Account} (fits : a.Fits) (other : m.version a.address ≠ a.version) :
    ∃ detail, t.save a = .error (.stale detail) := by
  obtain ⟨first, firstMade⟩ := fits.row 1
  obtain ⟨row, made⟩ := fits.row (a.version + 1)
  rcases found_of_rows rep.rows a.address with ⟨absent, stands⟩ | ⟨b, old, known, stands, own⟩
  · have versioned : a.version ≠ 0 := fun fresh =>
      other (by simp [AccountMap.version, absent, fresh])
    have refused : t.save a = .error (.changed a.address a.version) := by
      simp [AccountTable.save, versioned, fits.version, made, stands]
    exact ⟨_, refused⟩
  · have moved : old.version ≠ a.version := by
      rw [own.rowVersion]
      simpa [AccountMap.version, known] using other
    by_cases fresh : a.version = 0
    · have refused : t.save a = .error (.taken a.address) := by
        simp [AccountTable.save, fresh, firstMade, stands]
      exact ⟨_, refused⟩
    · have refused : t.save a = .error (.changed a.address a.version) := by
        simp [AccountTable.save, fresh, fits.version, made, stands, moved]
      exact ⟨_, refused⟩

/-! ## Look-ups -/

theorem Represents.find {m : AccountMap} {t : AccountTable} (rep : Represents m t)
    {address : Text} (fits : Row.storable address.lower = true) :
    t.findByAddress address = .ok (m.value? address.lower) := by
  unfold AccountTable.findByAddress
  rw [if_pos fits]
  rcases found_of_rows rep.rows address.lower with ⟨absent, stands⟩ | ⟨a, row, known, stands, own⟩
  · rw [absent, stands]
    rfl
  · simp [known, stands, AccountTable.accountOf, own.toAccount?]

/-- The accounts that are linked to a token, and their rows. -/
theorem rows_holders {m : AccountMap} {t : AccountTable} (rows : List.Forall₂ Keeps m t)
    {token : Int} {text : Text} (written : Integer.write? token = some text) :
    List.Forall₂ (fun a row => Keeps (a.address, a) row) (m.holders token)
      (t.filter fun r => r.vipToken = text) := by
  induction rows with
  | nil => exact .nil
  | @cons e row m t keeps rows ih =>
    obtain ⟨k, a⟩ := e
    have own : Keeps (a.address, a) row := { keeps with key := rfl }
    obtain ⟨-, -, -, -, -, token', -⟩ := Row.of_ofAccount? keeps.row
    have linked : row.vipToken = text ↔ a.vipToken = token := by
      constructor
      · rintro rfl
        exact Integer.write?_inj token' written
      · rintro rfl
        exact Option.some.inj (token'.symm.trans written)
    unfold AccountMap.holders at ih ⊢
    by_cases here : a.vipToken = token
    · have both := List.Forall₂.cons (R := fun b r => Keeps (Account.address b, b) r) own ih
      simpa [here, linked.mpr here] using both
    · have there : ¬ row.vipToken = text := fun same => here (linked.mp same)
      simpa [here, there] using ih

theorem exists_of_mem {α β : Type} {R : α → β → Prop} {as : List α} {bs : List β}
    (both : List.Forall₂ R as bs) {a : α} (member : a ∈ as) : ∃ b ∈ bs, R a b := by
  induction both with
  | nil => cases member
  | @cons a' b as bs here both ih =>
    rcases List.mem_cons.mp member with rfl | later
    · exact ⟨b, List.mem_cons_self, here⟩
    · obtain ⟨b', inside, related⟩ := ih later
      exact ⟨b', List.mem_cons_of_mem _ inside, related⟩

theorem Keeps.lastRequest {e : Text × Account} {row : Row} (keeps : Keeps e row) :
    row.lastRequest = e.2.lastRequest :=
  (Row.of_ofAccount? keeps.row).2.2.2.2.1

/-- An account with the latest grant of some accounts. No grant is earlier than any. -/
structure IsLatest (accounts : List Account) (best : Account) : Prop where
  member : best ∈ accounts
  latest : ∀ a ∈ accounts, AccountTable.earlier best.lastRequest a.lastRequest = false

/-- The holder of a token that the table tells is a latest one of those in the map. -/
theorem Represents.findHolder {m : AccountMap} {t : AccountTable} (rep : Represents m t)
    {token : Int} (fits : (Integer.write? token).isSome) :
    (∃ best row, t.findByToken token = .ok (some best) ∧ IsLatest (m.holders token) best ∧
      Keeps (best.address, best) row) ∨
    (t.findByToken token = .ok none ∧ m.holders token = []) := by
  obtain ⟨text, written⟩ := Option.isSome_iff_exists.mp fits
  have both := rows_holders rep.rows written
  rw [AccountTable.findByToken_eq written]
  cases found : AccountTable.latest (t.filter fun r => r.vipToken = text) with
  | none =>
    refine .inr ⟨rfl, List.eq_nil_iff_forall_not_mem.mpr fun a member => ?_⟩
    obtain ⟨row, inside, -⟩ := exists_of_mem both member
    obtain ⟨best, some⟩ := AccountTable.latest_isSome inside
    rw [found] at some
    cases some
  | some row =>
    obtain ⟨inside, most⟩ := AccountTable.latest_spec found
    obtain ⟨best, member, own⟩ := exists_of_mem (R := flip _) both.flip inside
    refine .inl ⟨best, row, by simp [AccountTable.accountOf, own.toAccount?], ⟨member, ?_⟩, own⟩
    intro a other
    obtain ⟨row', inside', own'⟩ := exists_of_mem both other
    have later := most row' inside'
    rwa [own.lastRequest, own'.lastRequest] at later

/-- A grant that is not earlier than another one is at least as late. -/
theorem granted_le_of_not_earlier {a b : Account}
    (inTime : ∀ x, b.lastRequest = some x → Instant.first ≤ x)
    (later : AccountTable.earlier b.lastRequest a.lastRequest = false) : a.granted ≤ b.granted := by
  unfold Account.granted
  cases last : a.lastRequest with
  | none =>
    cases last' : b.lastRequest with
    | none => exact Int.le_refl _
    | some y => exact inTime y last'
  | some x =>
    rw [last] at later
    cases last' : b.lastRequest with
    | none =>
      rw [last'] at later
      cases later
    | some y =>
      rw [last'] at later
      exact AccountTable.earlier_some.mp later

/-! ## Runs -/

/-- Replies of two stores to one call: the same, or both stale, or two accounts of a token with
the same time of their grants. -/
inductive Agrees : StoreCall × StoreReply → StoreCall × StoreReply → Prop
  | same (call : StoreCall) (reply : StoreReply) : Agrees (call, reply) (call, reply)
  | stale (a : Account) (detail detail' : Text) :
      Agrees (.save a, .error (.stale detail)) (.save a, .error (.stale detail'))
  | tied {token : Int} {a b : Account} : a.vipToken = token → b.vipToken = token →
      a.granted = b.granted →
      Agrees (.findHolder token, .ok (some a)) (.findHolder token, .ok (some b))

/-- The table and the map reply alike to a sequence of calls, from nothing on. -/
def StoreCall.Alike (calls : List StoreCall) : Prop :=
  List.Forall₂ Agrees (replies AccountTable.perform [] calls).1
    (replies AccountMap.perform [] calls).1

/-- One call keeps a table in the place of a map, and both reply alike. -/
theorem Represents.perform {m : AccountMap} {t : AccountTable} (rep : Represents m t)
    {call : StoreCall} (fits : call.Fits) :
    Agrees (call, (t.perform call).1) (call, (m.perform call).1) ∧
      Represents (m.perform call).2 (t.perform call).2 := by
  cases call with
  | save a =>
    by_cases current : m.version a.address = a.version
    · obtain ⟨t', done, rep'⟩ := rep.save_done fits current
      simp only [AccountTable.perform, AccountMap.perform, done, if_pos current]
      exact ⟨.same _ _, rep'⟩
    · obtain ⟨detail, refused⟩ := rep.save_stale fits current
      simp only [AccountTable.perform, AccountMap.perform, refused, if_neg current]
      exact ⟨.stale _ _ _, rep⟩
  | find address =>
    simp only [AccountTable.perform, AccountMap.perform, rep.find fits]
    exact ⟨.same _ _, rep⟩
  | findHolder token =>
    refine ⟨?_, rep⟩
    simp only [AccountTable.perform, AccountMap.perform]
    rcases rep.findHolder fits with ⟨best, row, told, latest, own⟩ | ⟨told, nobody⟩
    · rw [told]
      cases found : AccountMap.latest (m.holders token) with
      | none =>
        have empty := AccountMap.latest_eq_none_iff.mp found
        rw [empty] at latest
        cases latest.member
      | some other =>
        obtain ⟨member, most⟩ := AccountMap.latest_spec found
        have linked : ∀ a ∈ m.holders token, a.vipToken = token := fun a inside => by
          simpa using (List.mem_filter.mp inside).2
        refine .tied (linked best latest.member) (linked other member) ?_
        have above := granted_le_of_not_earlier own.granted (latest.latest other member)
        exact Int.le_antisymm (most best latest.member) above
    · rw [told, nobody]
      exact .same _ _

/-- A sequence of calls gets replies that agree, and leaves a table in the place of a map. -/
theorem Represents.replies {m : AccountMap} {t : AccountTable} (rep : Represents m t)
    {calls : List StoreCall} (fits : ∀ call ∈ calls, call.Fits) :
    let table := StoreCall.replies AccountTable.perform t calls
    let map := StoreCall.replies AccountMap.perform m calls
    List.Forall₂ Agrees table.1 map.1 ∧ Represents map.2 table.2 := by
  induction calls generalizing m t with
  | nil => exact ⟨.nil, rep⟩
  | cons call rest ih =>
    obtain ⟨agrees, rep'⟩ := rep.perform (fits call List.mem_cons_self)
    obtain ⟨others, last⟩ := ih rep' fun other member => fits other (List.mem_cons_of_mem _ member)
    exact ⟨.cons agrees others, last⟩

/-! ## What a table keeps to -/

namespace AccountTable

/-- A save goes through: the reply is the account with its new version. From now on that is
found of its address in any letter case, and what is found of other addresses stays. -/
def Takes (t : AccountTable) (a : Account) : Prop :=
  ∃ t', t.perform (.save a) = (.ok (some (AccountMap.saved a)), t') ∧
    (∀ address : Text, address.lower = a.address →
      t'.findByAddress address = .ok (some (AccountMap.saved a))) ∧
    ∀ address : Text, address.lower ≠ a.address →
      t'.findByAddress address = t.findByAddress address

/-- A save is refused as stale and changes nothing. -/
def Refuses (t : AccountTable) (a : Account) : Prop :=
  ∃ detail, t.perform (.save a) = (.error (.stale detail), t)

/-- What a look-up of a token may find: an account that is linked to it, of which no other one
was granted later, or nothing if none is linked to it. -/
def Holder (t : AccountTable) (token : Int) : Option Account → Prop
  | some best => best.vipToken = token ∧ t.findByAddress best.address = .ok (some best) ∧
      ∀ address a, t.findByAddress address = .ok (some a) → a.vipToken = token →
        earlier best.lastRequest a.lastRequest = false
  | none => ∀ address a, t.findByAddress address = .ok (some a) → a.vipToken ≠ token

/-- A table that goes by the versions of the accounts. -/
structure Versioned (t : AccountTable) : Prop where
  /-- The version that is found, zero if there is none, is the only one to save on. -/
  save : ∀ a : Account, a.Fits → ∃ found, t.findByAddress a.address = .ok found ∧
    if (found.map Account.version).getD 0 = a.version then t.Takes a else t.Refuses a
  holder : ∀ token : Int, (Integer.write? token).isSome →
    ∃ found, t.findByToken token = .ok found ∧ t.Holder token found

end AccountTable

theorem Represents.takes {m : AccountMap} {t : AccountTable} (rep : Represents m t) {a : Account}
    (fits : a.Fits) (current : m.version a.address = a.version) : t.Takes a := by
  obtain ⟨t', done, rep'⟩ := rep.save_done fits current
  refine ⟨t', by simp only [AccountTable.perform, done], ?_, ?_⟩
  · intro address own
    rw [rep'.find (own ▸ fits.storable), own, Entries.value?, Entries.lookup_put_self]
  · intro address other
    cases storable : Row.storable address.lower with
    | true =>
      rw [rep'.find storable, rep.find storable, Entries.value?, Entries.lookup_put_of_ne other]
    | false => simp [AccountTable.findByAddress, storable]

/-- What is found of any address is what the map has under its lower-case form. -/
theorem Represents.value_of_find {m : AccountMap} {t : AccountTable} (rep : Represents m t)
    {address : Text} {a : Account} (found : t.findByAddress address = .ok (some a)) :
    m.value? address.lower = some a := by
  cases storable : Row.storable address.lower with
  | true => exact Except.ok.inj ((rep.find storable).symm.trans found)
  | false => simp [AccountTable.findByAddress, storable] at found

/-- An account of the map is found by its own address. -/
theorem Represents.find_of_mem {m : AccountMap} {t : AccountTable} (rep : Represents m t)
    {e : Text × Account} (member : e ∈ m) : t.findByAddress e.2.address = .ok (some e.2) := by
  obtain ⟨row, -, own⟩ := exists_of_mem rep.rows member
  have storable : Row.storable e.2.address = true := Row.storable_of_ofAccount? own.row
  have known : m.value? e.2.address = some e.2 :=
    Entries.lookup_of_mem rep.nodup (own.key ▸ member)
  rw [rep.find (own.lower.symm ▸ storable), own.lower, known]

theorem mem_holders {m : AccountMap} {token : Int} {a : Account} :
    a ∈ m.holders token ↔ (∃ e ∈ m, e.2 = a) ∧ a.vipToken = token := by
  simp [AccountMap.holders]

theorem Represents.versioned {m : AccountMap} {t : AccountTable} (rep : Represents m t) :
    t.Versioned := by
  refine ⟨fun a fits => ⟨m.value? a.address, ?_, ?_⟩, fun token fits => ?_⟩
  · rw [rep.find (fits.lower.symm ▸ fits.storable), fits.lower]
  · split
    · rename_i current
      exact rep.takes fits current
    · rename_i other
      obtain ⟨detail, refused⟩ := rep.save_stale fits other
      exact ⟨detail, by simp only [AccountTable.perform, refused]⟩
  · have linked : ∀ address a, t.findByAddress address = .ok (some a) → a.vipToken = token →
        a ∈ m.holders token := fun address a found own =>
      mem_holders.mpr ⟨⟨_, Entries.mem_of_lookup (rep.value_of_find found), rfl⟩, own⟩
    rcases rep.findHolder fits with ⟨best, row, told, latest, -⟩ | ⟨told, nobody⟩
    · obtain ⟨⟨e, member, rfl⟩, own⟩ := mem_holders.mp latest.member
      refine ⟨some e.2, told, own, rep.find_of_mem member, fun address a found same => ?_⟩
      exact latest.latest a (linked address a found same)
    · refine ⟨none, told, fun address a found same => ?_⟩
      have held := linked address a found same
      rw [nobody] at held
      cases held

/-- The table and the map take every sequence of calls that fit alike, and the table goes by
the versions afterwards. -/
theorem StoreCall.refines_map {calls : List StoreCall} (fits : ∀ call ∈ calls, call.Fits) :
    Alike calls ∧ (replies AccountTable.perform [] calls).2.Versioned := by
  obtain ⟨agrees, rep⟩ := represents_nil.replies fits
  exact ⟨agrees, rep.versioned⟩

/-- An address in capitals. -/
def capitalAddress : Text := "0X00000000000000000000000000000000000000AA"

/-- An account of a token that has not been saved, with a balance of more than 64 bits. -/
def unsavedAccount : Account :=
  { address := capitalAddress.lower, remainingGas := Nat.pow 10 30, lastRequest := some 0,
    vipToken := 5 }

/-- Another account of the token, with a later grant. -/
def laterAccount : Account :=
  { unsavedAccount with address := ['a'], lastRequest := some 1 }

theorem unsavedAccount_fits : unsavedAccount.Fits where
  lowered := ⟨capitalAddress, rfl⟩
  remaining := by decide +kernel
  used := by decide +kernel
  token := by decide +kernel
  granted := by rintro x ⟨⟩; decide
  storable := by decide +kernel
  version := by decide +kernel

theorem laterAccount_fits : laterAccount.Fits :=
  { unsavedAccount_fits with
    lowered := ⟨['A'], by decide +kernel⟩
    granted := by rintro x ⟨⟩; decide
    storable := by decide +kernel }

/-- An account that is saved twice is refused the second time and found as it was saved the
first; the token is that of the account with the later grant. -/
theorem StoreCall.refines_map_saved_twice :
    let calls := [.save unsavedAccount, .save laterAccount, .save unsavedAccount,
      .find capitalAddress, .findHolder 5]
    (∀ call ∈ calls, call.Fits) ∧ Alike calls ∧
      (replies AccountTable.perform [] calls).2.Versioned ∧
      (replies AccountTable.perform [] calls).1.map Prod.snd =
        [.ok (some (AccountMap.saved unsavedAccount)),
          .ok (some (AccountMap.saved laterAccount)),
          .error (.taken unsavedAccount.address),
          .ok (some (AccountMap.saved unsavedAccount)),
          .ok (some (AccountMap.saved laterAccount))] := by
  intro calls
  have fits : ∀ call ∈ calls, call.Fits := by
    simp only [calls, List.forall_mem_cons]
    refine ⟨unsavedAccount_fits, laterAccount_fits, unsavedAccount_fits, ?_, ?_,
      List.forall_mem_nil _⟩
    · exact unsavedAccount_fits.storable
    · exact unsavedAccount_fits.token
  obtain ⟨alike, versioned⟩ := refines_map fits
  exact ⟨fits, alike, versioned, by decide +kernel⟩

/-- Where the table fails, no reply but the same failure agrees with it. -/
theorem StoreCall.not_alike_of_failed {a : Account} {reply : StoreReply}
    (failed : (AccountTable.perform [] (.save a)).1 = .error .failed)
    (given : (AccountMap.perform [] (.save a)).1 = reply) (other : reply ≠ .error .failed) :
    ¬ Alike [.save a] := by
  intro alike
  simp only [Alike, replies, failed, given] at alike
  cases alike with
  | cons agrees _ =>
    cases agrees
    exact other rfl

/-- Past what can be stored the two part: a version of more than 64 bits and an address with a
lone surrogate fail in the table, where the map refuses the one and keeps the other. -/
theorem StoreCall.parts_from_map :
    let wide : Account := { unsavedAccount with version := Nat.pow 2 63 }
    let lone : Account := { unsavedAccount with address := [⟨0xd800, by decide⟩] }
    wide.Written ∧ ¬ Alike [.save wide] ∧ lone.Written ∧ ¬ Alike [.save lone] := by
  intro wide lone
  have written : unsavedAccount.Written := unsavedAccount_fits.toWritten
  have lowered : ∃ t : Text, lone.address = t.lower := ⟨lone.address, by decide +kernel⟩
  refine ⟨{ written with }, ?_, { written with lowered }, ?_⟩
  · have failed : (AccountTable.perform [] (.save wide)).1 = .error .failed := by decide +kernel
    exact not_alike_of_failed failed rfl (by decide +kernel)
  · have failed : (AccountTable.perform [] (.save lone)).1 = .error .failed := by decide +kernel
    exact not_alike_of_failed failed rfl (by decide +kernel)

end Paymaster

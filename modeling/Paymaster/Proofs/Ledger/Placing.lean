import Mathlib.Data.List.Nodup
import Paymaster.Proofs.Ledger.Addresses
import Paymaster.Proofs.Ledger.Holders
import Paymaster.Proofs.Ledger.World

/-!
# Rows in their places

A save places a row at its address, or nothing (`AccountTable.afterSave_eq`). What is placed at
different addresses can be placed in either order (`AccountTable.Same.place_comm`). The last
grant through a token, which is all that a grant reads of other accounts, is not changed by a row
that keeps the token and the date of the one before it (`AccountTable.lastGrant_place_of_kept`),
nor by one that has to do with the token neither before nor afterwards
(`AccountTable.lastGrant_place_of_other`).
-/

namespace Paymaster

namespace AccountTable

variable {t : AccountTable} {row : Row}

/-! ## Placing -/

/-- The table with a row at its address: in the place of the one that stands there, or behind
all others. -/
def place (t : AccountTable) (row : Row) : AccountTable :=
  if (t.row? row.address).isSome then t.replace row else t ++ [row]

/-- The table with a row placed, if there is one. -/
def placed (t : AccountTable) (row? : Option Row) : AccountTable :=
  row?.elim t t.place

theorem row?_place (t : AccountTable) (row : Row) (address : Text) :
    (t.place row).row? address = if address = row.address then some row else t.row? address := by
  unfold place
  cases present : t.row? row.address with
  | none => exact row?_append present address
  | some old =>
    show (t.replace row).row? address = _
    rw [row?_replace]
    by_cases here : address = row.address
    · rw [if_pos here, if_pos here, here, present]
      rfl
    · rw [if_neg here, if_neg here]

theorem row?_place_of_ne {address : Text} (ne : address ≠ row.address) :
    (t.place row).row? address = t.row? address := by
  rw [row?_place, if_neg ne]

/-- Two tables with the same rows, each found under the same address. -/
structure Same (t t' : AccountTable) : Prop where
  rows : t.Perm t'
  found : ∀ address, t.row? address = t'.row? address

theorem Same.refl (t : AccountTable) : Same t t :=
  ⟨.refl t, fun _ => rfl⟩

theorem replace_comm {row row' : Row} (ne : row.address ≠ row'.address) (t : AccountTable) :
    (t.replace row).replace row' = (t.replace row').replace row := by
  unfold replace
  rw [List.map_map, List.map_map]
  refine List.map_congr_left fun r _ => ?_
  by_cases first : r.address = row.address
  · have second : r.address ≠ row'.address := fun same => ne (first.symm.trans same)
    simp [first, ne]
  · by_cases second : r.address = row'.address
    · simp [second, Ne.symm ne]
    · simp [first, second]

theorem replace_append (row : Row) (t : AccountTable) {row' : Row}
    (ne : row'.address ≠ row.address) :
    replace (t ++ [row']) row = t.replace row ++ [row'] := by
  simp [replace, ne]

/-- Rows at different addresses can be placed in either order. -/
theorem Same.place_comm {row row' : Row} (ne : row.address ≠ row'.address) (t : AccountTable) :
    Same ((t.place row).place row') ((t.place row').place row) := by
  refine ⟨?_, fun address => ?_⟩
  · have first : (t.place row).row? row'.address = t.row? row'.address :=
      row?_place_of_ne (Ne.symm ne)
    have second : (t.place row').row? row.address = t.row? row.address := row?_place_of_ne ne
    unfold place at first second ⊢
    rw [first, second]
    cases t.row? row.address with
    | none =>
      cases t.row? row'.address with
      | none =>
        simp only [Option.isSome_none, Bool.false_eq_true, if_false, List.append_assoc]
        exact (List.Perm.refl t).append (List.Perm.swap _ _ [])
      | some _ => simp [replace_append row' t ne]
    | some _ =>
      cases t.row? row'.address with
      | none => simp [replace_append row t (Ne.symm ne)]
      | some _ => simp [replace_comm ne t]
  · simp only [row?_place]
    by_cases here : address = row.address
    · have other : address ≠ row'.address := fun same => ne (here.symm.trans same)
      simp [here, ne]
    · simp [here]

/-! ## Saves -/

theorem place_of_save {a b : Account} {t' : AccountTable} (saved : t.save a = .ok (t', b)) :
    ∃ row, Row.ofAccount? a (a.version + 1) = some row ∧ t' = t.place row := by
  unfold save at saved
  split at saved
  · rename_i fresh
    split at saved
    · cases saved
    · rename_i row made
      have address := (Row.of_ofAccount? made).1
      split at saved
      · cases saved
      · rename_i absent
        cases saved
        refine ⟨row, by simpa [fresh] using made, ?_⟩
        rw [place, address, absent]
        rfl
  · split at saved
    · split at saved
      · cases saved
      · rename_i row made
        have address := (Row.of_ofAccount? made).1
        split at saved
        · rename_i old present
          split at saved
          · cases saved
            refine ⟨row, made, ?_⟩
            rw [place, address, present]
            rfl
          · cases saved
        · cases saved
    · cases saved

/-- A save places one row or none, the same in all tables with the same row at its address. -/
theorem afterSave_eq (t : AccountTable) (a : Account) (reception : Reception) :
    ∃ row? : Option Row, (∀ row, row? = some row → Row.ofAccount? a (a.version + 1) = some row) ∧
      ∀ t' : AccountTable, t'.row? a.address = t.row? a.address →
        t'.afterSave a reception = t'.placed row? := by
  have kept : ∃ row? : Option Row,
      (∀ row, row? = some row → Row.ofAccount? a (a.version + 1) = some row) ∧
      ∀ t' : AccountTable, t'.row? a.address = t.row? a.address →
        t'.afterSave a .heard = t'.placed row? := by
    unfold afterSave
    cases verdict : t.save a with
    | error fault =>
      refine ⟨none, nofun, fun t' same => ?_⟩
      have alike := save_congr same
      rw [verdict] at alike
      cases verdict' : t'.save a with
      | error fault' => rfl
      | ok saved' => simp [verdict', Except.map] at alike
    | ok saved =>
      obtain ⟨row, made, -⟩ := place_of_save verdict
      refine ⟨some row, fun row' given => by rw [← given]; exact made, fun t' same => ?_⟩
      have alike := save_congr same
      rw [verdict] at alike
      cases verdict' : t'.save a with
      | error fault' => simp [verdict', Except.map] at alike
      | ok saved' =>
        obtain ⟨row', made', placed⟩ := place_of_save verdict'
        cases made.symm.trans made'
        exact placed
  cases reception with
  | failed fault => exact ⟨none, nofun, fun t' _ => rfl⟩
  | heard => exact kept
  | unheard => exact kept

/-! ## Sound tables -/

/-- A table as saves leave it: a token stands in a row in the way in which it is written, and no
address has two rows. -/
structure Sound (t : AccountTable) : Prop where
  written : ∀ r ∈ t, ∀ a, r.toAccount? = some a → Integer.write? a.vipToken = some r.vipToken
  once : t.addresses.Nodup

theorem sound_nil : Sound [] :=
  ⟨fun _ member => (List.not_mem_nil member).elim, List.nodup_nil⟩

/-- A row that was made of an account is read with the same token and date. -/
theorem toAccount?_of_made {a : Account} {version : Int} {r : Row}
    (made : Row.ofAccount? a version = some r) : ∃ b, r.toAccount? = some b ∧
      b.vipToken = a.vipToken ∧ b.lastRequest = a.lastRequest := by
  obtain ⟨-, -, remaining, used, last, token, -⟩ := Row.of_ofAccount? made
  rw [Row.toAccount?, Integer.read_of_write? token, Row.balance?_of_write? remaining,
    Row.balance?_of_write? used]
  exact ⟨_, rfl, rfl, last⟩

theorem Sound.save (sound : t.Sound) {a b : Account} {t' : AccountTable}
    (saved : t.save a = .ok (t', b)) : t'.Sound := by
  refine ⟨fun r member c read => ?_, nodup_of_save saved sound.once⟩
  rcases ((saved_of_save saved).1.members r).mp member with made | ⟨before, -⟩
  · obtain ⟨c', read', token, -⟩ := toAccount?_of_made made
    rw [read] at read'
    cases read'
    rw [token]
    exact (Row.of_ofAccount? made).2.2.2.2.2.1
  · exact sound.written r before c read

/-- What stands in the place of a row when another one has been put at its own address. -/
def instead (row r : Row) : Row :=
  if r.address = row.address then row else r

theorem place_eq_map {old : Row} (stands : t.row? row.address = some old) :
    t.place row = t.map (instead row) := by
  rw [place, stands]
  rfl

/-- In a sound table only the row that is found at its address gives way to another one. -/
theorem Sound.instead_eq (sound : t.Sound) {old r : Row}
    (stands : t.row? row.address = some old) (member : r ∈ t) :
    instead row r = r ∨ r = old ∧ instead row r = row := by
  by_cases here : r.address = row.address
  · obtain ⟨member', here'⟩ := mem_of_row? stands
    have same := List.inj_on_of_nodup_map sound.once member member' (here.trans here'.symm)
    exact .inr ⟨same, if_pos here⟩
  · exact .inl (if_neg here)

/-! ## The last grant through a token -/

/-- When the account was granted that a look-up for a token finds. -/
def lastGrant (t : AccountTable) (token : Int) : Except StoreFault (Option (Option Instant)) :=
  (t.findByToken token).map (Option.map Account.lastRequest)

/-- The rows that are linked to a token. -/
def linked (t : AccountTable) (text : Text) : List Row :=
  t.filter fun r => r.vipToken = text

/-- The last grant is told by the latest linked row. -/
theorem lastGrant_eq (t : AccountTable) {token : Int} {text : Text}
    (written : Integer.write? token = some text) :
    t.lastGrant token =
      (accountOf (latest (t.linked text))).map (Option.map Account.lastRequest) := by
  rw [lastGrant, findByToken_eq written]
  rfl

theorem lastGrant_of_unwritten (t : AccountTable) {token : Int}
    (unwritten : Integer.write? token = none) : t.lastGrant token = .error .failed := by
  unfold lastGrant findByToken
  rw [unwritten]
  rfl

theorem latest_map {f : Row → Row} {rows : List Row}
    (dated : ∀ r ∈ rows, (f r).lastRequest = r.lastRequest) :
    latest (rows.map f) = (latest rows).map f := by
  induction rows with
  | nil => rfl
  | cons r rest ih =>
    have earlierDated := ih fun r' member => dated r' (List.mem_cons_of_mem _ member)
    unfold latest
    rw [List.map_cons]
    simp only [earlierDated]
    cases found : latest rest with
    | none => rfl
    | some best =>
      have bestDated : (f best).lastRequest = best.lastRequest :=
        dated best (List.mem_cons_of_mem _ (latest_spec found).1)
      simp only [Option.map_some, dated r List.mem_cons_self, bestDated]
      split <;> rfl

/-- A row that keeps token and date of the account before it does not change the last grants. -/
theorem lastGrant_place_of_kept (sound : t.Sound) (isKey : row.address.IsKey) {a old : Account}
    {version : Int} (made : Row.ofAccount? a version = some row)
    (present : t.findByAddress row.address = .ok (some old))
    (token : a.vipToken = old.vipToken) (last : a.lastRequest = old.lastRequest) (n : Int) :
    (t.place row).lastGrant n = t.lastGrant n := by
  cases written : Integer.write? n with
  | none => rw [lastGrant_of_unwritten _ written, lastGrant_of_unwritten _ written]
  | some text =>
    rcases row_of_findByAddress isKey present with ⟨before, _, stands, read, same⟩ | ⟨-, absent⟩
    · cases same
      obtain ⟨b, read', -, bLast⟩ := toAccount?_of_made made
      have sameToken : row.vipToken = before.vipToken := by
        have tokenWritten := (Row.of_ofAccount? made).2.2.2.2.2.1
        rw [token, sound.written before (mem_of_row? stands).1 old read] at tokenWritten
        exact (Option.some.inj tokenWritten).symm
      have sameLast : row.lastRequest = before.lastRequest := by
        rw [(Row.of_ofAccount? made).2.2.2.2.1, last, (Row.version_of_toAccount? read).2.2.1]
      have sameLinked : linked (t.place row) text = (t.linked text).map (instead row) := by
        rw [place_eq_map stands, linked, List.filter_map, linked]
        refine congrArg (List.map _) (List.filter_congr fun r member => ?_)
        rcases sound.instead_eq stands member with kept | ⟨rfl, put⟩
        · simp only [Function.comp, kept]
        · simp only [Function.comp, put, sameToken]
      have dated : ∀ r ∈ t.linked text, (instead row r).lastRequest = r.lastRequest := by
        intro r member
        rcases sound.instead_eq stands (List.mem_filter.mp member).1 with kept | ⟨rfl, put⟩
        · rw [kept]
        · rw [put, sameLast]
      rw [lastGrant_eq _ written, lastGrant_eq _ written, sameLinked, latest_map dated]
      cases found : latest (t.linked text) with
      | none => rfl
      | some best =>
        have member := (List.mem_filter.mp (latest_spec found).1).1
        rcases sound.instead_eq stands member with kept | ⟨rfl, put⟩
        · rw [Option.map_some, kept]
        · simp only [Option.map_some, put, accountOf, read, read', Except.map, bLast, last]
    · cases absent

/-- A row of another token, in the place of none or of an account with another token, does not
change the last grant. -/
theorem lastGrant_place_of_other (sound : t.Sound) (isKey : row.address.IsKey) {a : Account}
    {version : Int} (made : Row.ofAccount? a version = some row) {found : Option Account}
    (present : t.findByAddress row.address = .ok found) {n : Int} (other : a.vipToken ≠ n)
    (before : ∀ b, found = some b → b.vipToken ≠ n) :
    (t.place row).lastGrant n = t.lastGrant n := by
  cases written : Integer.write? n with
  | none => rw [lastGrant_of_unwritten _ written, lastGrant_of_unwritten _ written]
  | some text =>
    have unlinked : row.vipToken ≠ text := fun same =>
      other (Integer.write?_inj (Row.of_ofAccount? made).2.2.2.2.2.1 (same ▸ written))
    have sameLinked : linked (t.place row) text = t.linked text := by
      rcases row_of_findByAddress isKey present with ⟨old, b, stands, read, rfl⟩ | ⟨absent, -⟩
      · have oldUnlinked : old.vipToken ≠ text := fun same =>
          before b rfl (Integer.write?_inj
            (sound.written old (mem_of_row? stands).1 b read) (same ▸ written))
        -- Neither the row that gives way nor the one that is put there is linked.
        have kept : ∀ r ∈ t.linked text, instead row r = r := by
          intro r member
          rcases sound.instead_eq stands (List.mem_filter.mp member).1 with kept | ⟨rfl, -⟩
          · exact kept
          · exact absurd (by simpa using (List.mem_filter.mp member).2) oldUnlinked
        have alike : ∀ r ∈ t, (instead row r).vipToken = text ↔ r.vipToken = text := by
          intro r member
          rcases sound.instead_eq stands member with kept | ⟨rfl, put⟩
          · rw [kept]
          · rw [put]
            exact iff_of_false unlinked oldUnlinked
        rw [place_eq_map stands, linked, List.filter_map]
        calc
          _ = (t.linked text).map (instead row) :=
            congrArg (List.map _) (List.filter_congr fun r member =>
              decide_eq_decide.mpr (alike r member))
          _ = t.linked text := (List.map_congr_left kept).trans (List.map_id _)
      · rw [place, absent]
        simp [linked, unlinked]
    rw [lastGrant_eq _ written, lastGrant_eq _ written, sameLinked]

end AccountTable

/-- The tables of a run are sound if the first one is. -/
theorem Traffic.Run.sound {α : Type} {s s' : Traffic α} {events : List Event}
    (run : Run s events s') (sound : s.accounts.Sound) : s'.accounts.Sound := by
  induction run with
  | refl => exact sound
  | step _ step ih =>
    obtain ⟨found, left, -⟩ := step.tables
    have committed := step.commit
    rw [← left]
    rw [← found] at ih
    split at committed
    · obtain ⟨-, b, done⟩ := committed
      exact ih.save done
    · rw [committed]
      exact ih

end Paymaster

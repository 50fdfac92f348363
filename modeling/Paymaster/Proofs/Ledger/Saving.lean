import Paymaster.Ledger.Table
import Paymaster.Proofs.Text.Keys

/-!
# What a save does to the accounts table

A row that is made of an account is read back as that account under its new version
(`Row.toAccount?_of_ofAccount?`). `AccountTable.Saved` says everything that a successful save
does: the row of one address is replaced or inserted, its version is one more than the one
that was expected, and every other row stays (`AccountTable.saved_of_save`).
`AccountTable.Later` is what any number of saves leaves of an address: its row is the same or
has a larger version. So a save on the version of an earlier look-up meets the row that was
found (`AccountTable.row_unmoved`) or is refused as stale (`AccountTable.stale_of_moved`).
-/

namespace Paymaster

/-! ## Rows -/

namespace Row

theorem balance?_of_write? {n : Nat} {t : Text} (written : Integer.write? n = some t) :
    balance? t = some n := by
  simp only [balance?, Integer.read_of_write? written]

/-- The parts of a row that was made of an account. -/
theorem of_ofAccount? {a : Account} {version : Int} {r : Row}
    (made : ofAccount? a version = some r) :
    r.address = a.address ∧ r.enabled = a.enabled ∧
      Integer.write? a.remainingGas = some r.remainingGas ∧
      Integer.write? a.usedGas = some r.usedGas ∧ r.lastRequest = a.lastRequest ∧
      Integer.write? a.vipToken = some r.vipToken ∧ r.version = version := by
  unfold ofAccount? at made
  split at made
  · simp only [Option.bind_eq_bind, Option.bind_eq_some_iff, Option.pure_def,
      Option.some.injEq] at made
    obtain ⟨remaining, remainingWritten, used, usedWritten, token, tokenWritten, rfl⟩ := made
    exact ⟨rfl, rfl, remainingWritten, usedWritten, rfl, tokenWritten, rfl⟩
  · cases made

theorem storable_of_ofAccount? {a : Account} {version : Int} {r : Row}
    (made : ofAccount? a version = some r) : storable a.address = true := by
  cases storable : storable a.address with
  | true => rfl
  | false => simp [ofAccount?, storable] at made

/-- A row is read back as the account that it was made of, under its version. -/
theorem toAccount?_of_ofAccount? {a : Account} {version : Int} {r : Row}
    (lower : a.address.lower = a.address) (made : ofAccount? a version = some r) :
    r.toAccount? = some { a with version } := by
  obtain ⟨address, enabled, remaining, used, last, token, versioned⟩ := of_ofAccount? made
  rw [toAccount?, Integer.read_of_write? token, balance?_of_write? remaining,
    balance?_of_write? used, address, lower, enabled, last, versioned]
  rfl

theorem version_of_toAccount? {r : Row} {a : Account} (read : r.toAccount? = some a) :
    a.version = r.version ∧ a.address = r.address.lower ∧ a.lastRequest = r.lastRequest ∧
      a.enabled = r.enabled := by
  simp only [toAccount?, Option.bind_eq_bind, Option.bind_eq_some_iff, Option.pure_def,
    Option.some.injEq] at read
  obtain ⟨_, _, _, _, _, _, rfl⟩ := read
  exact ⟨rfl, rfl, rfl, rfl⟩

end Row

namespace AccountTable

/-! ## Rows of a table -/

theorem mem_of_row? {t : AccountTable} {address : Text} {r : Row}
    (found : t.row? address = some r) : r ∈ t ∧ r.address = address := by
  refine ⟨List.mem_of_find?_eq_some found, ?_⟩
  simpa using List.find?_some found

theorem row?_append {t : AccountTable} {row : Row} (absent : t.row? row.address = none)
    (address : Text) :
    row? (t ++ [row]) address = if address = row.address then some row else t.row? address := by
  unfold row? at *
  rw [List.find?_append]
  split
  · rename_i same
    subst same
    rw [absent]
    simp
  · rename_i other
    have unequal : ¬row.address = address := fun same => other same.symm
    simp [unequal]

theorem row?_replace (t : AccountTable) (row : Row) (address : Text) :
    (t.replace row).row? address =
      if address = row.address then (t.row? address).map fun _ => row else t.row? address := by
  induction t with
  | nil => simp [replace, row?]
  | cons r rest ih =>
    unfold replace row? at *
    rw [List.map_cons, List.find?_cons, List.find?_cons]
    by_cases here : r.address = row.address
    · rw [if_pos here]
      by_cases asked : row.address = address
      · simp [here, asked]
      · have asked' : ¬address = row.address := fun same => asked same.symm
        simp only [asked, here, decide_false, ih, if_neg asked']
    · rw [if_neg here]
      by_cases asked : r.address = address
      · have asked' : ¬address = row.address := fun same => here (asked.trans same)
        simp [asked, asked']
      · simp only [asked, decide_false, ih]

/-! ## Saves -/

/-- What a successful save of an account does to a table. -/
structure Saved (t : AccountTable) (a : Account) (t' : AccountTable) : Prop where
  /-- The row that stood there has the version that was expected, and none has version zero. -/
  expected : match t.row? a.address with
    | none => a.version = 0
    | some old => a.version ≠ 0 ∧ old.version = a.version
  row : ∃ row, Row.ofAccount? a (a.version + 1) = some row ∧ t'.row? a.address = some row
  others : ∀ address, address ≠ a.address → t'.row? address = t.row? address
  /-- The rows afterwards are the new one and those of other addresses. -/
  members : ∀ r, r ∈ t' ↔
    Row.ofAccount? a (a.version + 1) = some r ∨ r ∈ t ∧ r.address ≠ a.address

theorem address_ne_of_row?_eq_none {t : AccountTable} {address : Text}
    (absent : t.row? address = none) {r : Row} (member : r ∈ t) : r.address ≠ address := by
  simpa using List.find?_eq_none.mp absent r member

theorem mem_replace {t : AccountTable} {row old : Row} (present : t.row? row.address = some old)
    (r : Row) : r ∈ t.replace row ↔ r = row ∨ r ∈ t ∧ r.address ≠ row.address := by
  unfold replace
  rw [List.mem_map]
  constructor
  · intro given
    rcases given with ⟨r', member, rfl⟩
    split
    · exact .inl rfl
    · rename_i other
      exact .inr ⟨member, other⟩
  · intro given
    rcases given with rfl | ⟨member, other⟩
    · obtain ⟨member, same⟩ := mem_of_row? present
      exact ⟨old, member, if_pos same⟩
    · exact ⟨r, member, if_neg other⟩

theorem saved_of_save {t t' : AccountTable} {a b : Account} (saved : t.save a = .ok (t', b)) :
    t.Saved a t' ∧ b = { a with version := a.version + 1 } := by
  unfold save at saved
  split at saved
  · rename_i fresh
    split at saved
    · cases saved
    · rename_i row made
      obtain ⟨address, -⟩ := Row.of_ofAccount? made
      split at saved
      · cases saved
      · rename_i absent
        cases saved
        have rows := row?_append (show t.row? row.address = none by rw [address]; exact absent)
        have made' : Row.ofAccount? a (a.version + 1) = some row := by simpa [fresh] using made
        refine ⟨⟨?_, ⟨row, made', ?_⟩, fun other ne => ?_, fun r => ?_⟩, ?_⟩
        · simpa [absent] using fresh
        · rw [rows, if_pos address.symm]
        · rw [rows, if_neg (by rw [address]; exact ne)]
        · rw [made', Option.some.injEq, List.mem_append, List.mem_singleton, or_comm]
          refine or_congr eq_comm ⟨fun member => ⟨member, ?_⟩, And.left⟩
          exact address_ne_of_row?_eq_none absent member
        · simp [fresh]
  · rename_i known
    split at saved
    · split at saved
      · cases saved
      · rename_i row made
        obtain ⟨address, -⟩ := Row.of_ofAccount? made
        split at saved
        · rename_i old present
          split at saved
          · rename_i same
            cases saved
            refine ⟨⟨?_, ⟨row, made, ?_⟩, fun other ne => ?_, fun r => ?_⟩, rfl⟩
            · simpa [present] using ⟨known, same⟩
            · rw [row?_replace, if_pos address.symm, present]
              rfl
            · rw [row?_replace, if_neg (by rw [address]; exact ne)]
            · rw [made, Option.some.injEq, mem_replace (by rw [address]; exact present), address]
              exact or_congr eq_comm Iff.rfl
          · cases saved
        · cases saved
    · cases saved

/-! ## Versions -/

/-- What any number of saves leaves of a table: under every address stands the row that
stood there, or one with a larger version. -/
def Later (t t' : AccountTable) : Prop :=
  ∀ address old, t.row? address = some old →
    ∃ new, t'.row? address = some new ∧ (new = old ∨ old.version < new.version)

theorem Later.refl (t : AccountTable) : t.Later t :=
  fun _ old present => ⟨old, present, .inl rfl⟩

theorem Later.trans {t t' t'' : AccountTable} (first : t.Later t') (second : t'.Later t'') :
    t.Later t'' := by
  intro address old present
  obtain ⟨mid, midPresent, step⟩ := first address old present
  obtain ⟨new, newPresent, step'⟩ := second address mid midPresent
  refine ⟨new, newPresent, ?_⟩
  rcases step with rfl | grown
  · exact step'
  · rcases step' with rfl | grown'
    · exact .inr grown
    · exact .inr (Int.lt_trans grown grown')

/-- A save makes the version of its row larger. -/
theorem Saved.later {t t' : AccountTable} {a : Account} (saved : t.Saved a t') : t.Later t' := by
  intro address old present
  by_cases here : address = a.address
  · subst here
    obtain ⟨row, made, stands⟩ := saved.row
    have expected := saved.expected
    rw [present] at expected
    obtain ⟨-, -, -, -, -, -, version⟩ := Row.of_ofAccount? made
    exact ⟨row, stands, .inr (by rw [version, expected.2]; omega)⟩
  · exact ⟨old, by rw [saved.others address here]; exact present, .inl rfl⟩

/-- A save changes its row, so the table is another one afterwards. -/
theorem Saved.ne {t t' : AccountTable} {a : Account} (saved : t.Saved a t') : t' ≠ t := by
  intro same
  subst same
  obtain ⟨row, made, stands⟩ := saved.row
  have expected := saved.expected
  rw [stands] at expected
  obtain ⟨-, -, -, -, -, -, version⟩ := Row.of_ofAccount? made
  have := expected.2
  omega

/-- A row that was saved is not the one that stood there before. -/
theorem moved_of_saved {t₀ t t' t'' : AccountTable} {a : Account} (earlier : t₀.Later t)
    (saved : t.Saved a t') (later : t'.Later t'') :
    t''.row? a.address ≠ t₀.row? a.address := by
  intro same
  obtain ⟨row, made, stands⟩ := saved.row
  obtain ⟨new, present, since⟩ := later a.address row stands
  rw [present] at same
  obtain ⟨mid, between, before⟩ := earlier a.address new same.symm
  have expected := saved.expected
  rw [between] at expected
  obtain ⟨-, -, -, -, -, -, version⟩ := Row.of_ofAccount? made
  have grown : mid.version < row.version := by
    have := expected.2
    omega
  rcases before with rfl | before
  · rcases since with rfl | since <;> omega
  · rcases since with rfl | since <;> omega

/-- Every row has a version. -/
def Numbered (t : AccountTable) : Prop :=
  ∀ r ∈ t, 1 ≤ r.version

theorem Saved.numbered {t t' : AccountTable} {a : Account} (saved : t.Saved a t')
    (numbered : t.Numbered) : t'.Numbered := by
  intro r member
  rcases (saved.members r).mp member with made | ⟨before, -⟩
  · obtain ⟨-, -, -, -, -, -, version⟩ := Row.of_ofAccount? made
    have expected := saved.expected
    cases present : t.row? a.address with
    | none =>
      rw [present] at expected
      omega
    | some old =>
      rw [present] at expected
      have older := numbered old (mem_of_row? present).1
      have same := expected.2
      omega
  · exact numbered r before

/-! ## Look-ups -/

/-- The account of a key. -/
def account? (t : AccountTable) (key : Text) : Option Account :=
  (t.row? key).bind Row.toAccount?

/-- A look-up that succeeds tells the row of the key. -/
theorem row_of_findByAddress {t : AccountTable} {key : Text} {found : Option Account}
    (isKey : key.IsKey) (read : t.findByAddress key = .ok found) :
    (∃ r a, t.row? key = some r ∧ r.toAccount? = some a ∧ found = some a) ∨
      t.row? key = none ∧ found = none := by
  rw [findByAddress, isKey.lower, if_pos isKey.storable] at read
  cases present : t.row? key with
  | none =>
    rw [present] at read
    cases read
    exact .inr ⟨rfl, rfl⟩
  | some r =>
    rw [present, accountOf] at read
    cases account : r.toAccount? with
    | none =>
      rw [account] at read
      cases read
    | some a =>
      rw [account] at read
      cases read
      exact .inl ⟨r, a, rfl, account, rfl⟩

theorem account?_of_findByAddress {t : AccountTable} {key : Text} {found : Option Account}
    (isKey : key.IsKey) (read : t.findByAddress key = .ok found) : t.account? key = found := by
  rcases row_of_findByAddress isKey read with ⟨r, a, present, account, rfl⟩ | ⟨absent, rfl⟩
  · simp [account?, present, account]
  · simp [account?, absent]

/-- The version that a look-up leads a save to expect; nothing found is version zero. -/
def expectedVersion (found : Option Account) : Int :=
  (found.map Account.version).getD 0

/-- A save on the version of an earlier look-up succeeds only if the row is still the one
that was found: a row that was replaced has a larger version, and no version comes back. -/
theorem row_unmoved {t t' t'' : AccountTable} {found : Option Account} {a : Account}
    (isKey : a.address.IsKey) (read : t.findByAddress a.address = .ok found)
    (later : t.Later t') (version : a.version = expectedVersion found) (saved : t'.Saved a t'') :
    t'.row? a.address = t.row? a.address := by
  have expected := saved.expected
  rcases row_of_findByAddress isKey read with ⟨r, b, present, account, rfl⟩ | ⟨absent, rfl⟩
  · obtain ⟨new, stands, same | grown⟩ := later a.address r present
    · rw [stands, present, same]
    · rw [stands] at expected
      have read := (Row.version_of_toAccount? account).1
      have asked : a.version = b.version := version
      omega
  · cases stands : t'.row? a.address with
    | none => rw [absent]
    | some new =>
      rw [stands] at expected
      exact absurd version expected.1

/-- A save on the version of an earlier look-up is refused as stale if the row is another
one by now. -/
theorem stale_of_moved {t t' : AccountTable} {found : Option Account} {a : Account} {row : Row}
    (isKey : a.address.IsKey) (read : t.findByAddress a.address = .ok found)
    (later : t.Later t') (version : a.version = expectedVersion found)
    (fits : Row.fitsVersion a.version = true)
    (made : Row.ofAccount? a (a.version + 1) = some row)
    (moved : t'.row? a.address ≠ t.row? a.address) :
    ∃ detail, t'.save a = .error (.stale detail) := by
  rcases verdict : t'.save a with fault | ⟨t'', b⟩
  · by_cases fresh : a.version = 0
    · have made' : Row.ofAccount? a 1 = some row := by simpa [fresh] using made
      simp only [save, if_pos fresh, made'] at verdict
      split at verdict
      · exact ⟨_, verdict.symm⟩
      · cases verdict
    · simp only [save, if_neg fresh, if_pos fits, made] at verdict
      split at verdict
      · split at verdict
        · cases verdict
        · exact ⟨_, verdict.symm⟩
      · exact ⟨_, verdict.symm⟩
  · exact absurd (row_unmoved isKey read later version (saved_of_save verdict).1) moved

/-- A save that is refused as stale expected another version than the one that it met. -/
theorem expected_of_stale {t : AccountTable} {a : Account} {detail : Text}
    (stale : t.save a = .error (.stale detail)) :
    (a.version = 0 ∧ t.row? a.address ≠ none) ∨
      (a.version ≠ 0 ∧ ∀ r, t.row? a.address = some r → r.version ≠ a.version) := by
  unfold save at stale
  split at stale
  · rename_i fresh
    split at stale
    · cases stale
    · split at stale
      · rename_i r present
        exact .inl ⟨fresh, by simp [present]⟩
      · cases stale
  · rename_i known
    refine .inr ⟨known, ?_⟩
    split at stale
    · split at stale
      · cases stale
      · split at stale
        · rename_i old present
          split at stale
          · cases stale
          · rename_i other
            intro r stands
            rw [present] at stands
            cases stands
            exact other
        · rename_i absent
          intro r stands
          rw [absent] at stands
          cases stands
    · cases stale

end AccountTable

end Paymaster

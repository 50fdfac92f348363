import Paymaster.Access.KeyFile
import Paymaster.Access.Provisioning

/-!
# Keys that are given out

What a request for a key does depends on whether the key is in the table
(`Provision.run_of_found`, `Provision.run_of_absent`): a key that is there comes back as it is,
and otherwise one row is added behind the others. Requests never move a row, and only a switch
disables one; so a row that is enabled stays enabled, whatever happens to the table, until it is
switched off (`KeyTable.Enabled.after`).

A key that is drawn consists of letters, digits, hyphens and underscores (`Draw.mem_key`).
-/

namespace Paymaster

/-! ## Keys that are drawn -/

/-- The random bytes of which a key is made. -/
structure Draw where
  bytes : Bytes
  enough : bytes.length = 24

namespace Draw

def key (d : Draw) : Text :=
  KeyFile.fresh d.bytes

theorem letter_mem (n : Nat) : KeyFile.letter n ∈ KeyFile.letters := by
  have place : n % 64 < KeyFile.letters.length := Nat.mod_lt n (by decide)
  rw [KeyFile.letter, List.getD_eq_getElem?_getD, List.getElem?_eq_getElem place]
  exact List.getElem_mem place

theorem mem_fresh {bytes : Bytes} {c : CodePoint} (member : c ∈ KeyFile.fresh bytes) :
    c ∈ KeyFile.letters := by
  induction bytes using KeyFile.fresh.induct with
  | case1 a b d rest ih =>
    rw [KeyFile.fresh, List.mem_append] at member
    rcases member with group | later
    · simp only [List.mem_cons, List.not_mem_nil, or_false] at group
      rcases group with rfl | rfl | rfl | rfl <;> exact letter_mem _
    · exact ih later
  | case2 bytes short =>
    rw [KeyFile.fresh] at member
    · cases member
    · exact short

theorem mem_key {d : Draw} {c : CodePoint} (member : c ∈ d.key) : c ∈ KeyFile.letters :=
  mem_fresh member

theorem key_ne_nil (d : Draw) : d.key ≠ [] := by
  obtain ⟨bytes, enough⟩ := d
  match bytes, enough with
  | a :: b :: c :: rest, _ => simp [key, KeyFile.fresh]

/-- A key that is drawn has an encoding. -/
theorem surrogates?_key (d : Draw) : Utf8.surrogates? d.key = none := by
  have encodes : (KeyFile.letters.all fun c => !c.isSurrogate) = true := by decide +kernel
  exact Unencodable.find?_eq_none_iff.mpr fun c member =>
    List.all_eq_true.mp encodes c (mem_key member)

end Draw

/-! ## Requests for keys -/

namespace KeyTable

variable {t t' : KeyTable} {row : ApiKey}

/-- A row is added exactly if it has an encoding and its key is new. -/
theorem insert_eq_ok_iff : t.insert row = .ok t' ↔
    surrogates? row = none ∧ t.row? row.key = none ∧ t' = t ++ [row] := by
  unfold insert
  cases surrogates? row with
  | some run => simp
  | none => cases t.row? row.key <;> simp [eq_comm]

theorem surrogates?_eq_none_iff : surrogates? row = none ↔
    Utf8.surrogates? row.key = none ∧
      ∀ name, row.name = some name → Utf8.surrogates? name = none := by
  unfold surrogates?
  cases row.name <;> simp [Option.or_eq_none_iff]

end KeyTable

namespace Provision

variable {t : KeyTable} {key? : Option Text}

/-- A key that is there comes back as it is, and the table stays as it is. -/
theorem run_of_found {key : Text} {row : ApiKey} (encoded : Utf8.surrogates? key = none)
    (found : t.row? key = some row) (name fresh : Text) :
    run t name (some key) fresh = .ok (t, .existing row) := by
  simp [run, existing?, KeyTable.lookUp, encoded, found, bind, Except.bind, pure, Except.pure]

/-- Without a key that is there, a row is added. -/
theorem run_of_absent (encoded : ∀ key, key? = some key → Utf8.surrogates? key = none)
    (absent : ∀ key, key? = some key → t.row? key = none) (name fresh : Text) :
    run t name key? fresh = (t.insert (newRow name key? fresh)).map
      (·, .created (newRow name key? fresh)) := by
  have missing : existing? t key? = .ok none := by
    cases key? with
    | none => rfl
    | some key => simp [existing?, KeyTable.lookUp, encoded key rfl, absent key rfl]
  simp only [run, missing, bind, Except.bind]
  cases t.insert (newRow name key? fresh) <;> rfl

theorem run_of_unencodable {key : Text} {bad : Unencodable}
    (unencoded : Utf8.surrogates? key = some bad) (name fresh : Text) :
    run t name (some key) fresh = .error (.unencodable bad) := by
  simp [run, existing?, KeyTable.lookUp, unencoded, bind, Except.bind]

/-- A request that succeeds returns a row that is there or adds one. -/
theorem of_run {t' : KeyTable} {name fresh : Text} {p : Provision}
    (done : run t name key? fresh = .ok (t', p)) :
    t' = t ∨ t.insert (newRow name key? fresh) = .ok t' := by
  unfold run at done
  cases looked : existing? t key? with
  | error fault =>
    rw [looked] at done
    cases done
  | ok found =>
    rw [looked] at done
    cases found with
    | some row =>
      cases done
      exact .inl rfl
    | none =>
      cases added : t.insert (newRow name key? fresh) with
      | error fault => simp [added, bind, Except.bind] at done
      | ok t'' =>
        simp only [added, bind, Except.bind, pure, Except.pure] at done
        cases done
        exact .inr rfl

end Provision

/-! ## Histories of a table -/

/-- What happens to a table of keys. -/
inductive KeyEvent where
  | provision (name : Text) (key? : Option Text) (draw : Draw)
  /-- A row is enabled or disabled by hand. -/
  | switch (key : Text) (enabled : Bool)

namespace KeyTable

variable {t : KeyTable} {key : Text}

/-- The table after an event; a request that fails leaves it as it was. -/
def step (t : KeyTable) : KeyEvent → KeyTable
  | .provision name key? draw =>
    match Provision.run t name key? draw.key with
    | .ok (t', _) => t'
    | .error _ => t
  | .switch key enabled => t.map fun row => if row.key = key then { row with enabled } else row

def after (t : KeyTable) (events : List KeyEvent) : KeyTable :=
  events.foldl step t

/-- The key has a row that is enabled. -/
def Enabled (t : KeyTable) (key : Text) : Prop :=
  ∃ row, t.row? key = some row ∧ row.enabled = true

theorem row?_append_of_some {row : ApiKey} (found : t.row? key = some row) (more : KeyTable) :
    KeyTable.row? (t ++ more) key = some row := by
  unfold row? at found ⊢
  rw [List.find?_append, found]
  rfl

theorem row?_append_self {row : ApiKey} (new : t.row? row.key = none) :
    KeyTable.row? (t ++ [row]) row.key = some row := by
  unfold row? at new ⊢
  rw [List.find?_append, new]
  simp

theorem row?_switch (other : Text) (enabled : Bool) :
    KeyTable.row? (t.map fun row => if row.key = other then { row with enabled } else row) key =
      (t.row? key).map fun row => if row.key = other then { row with enabled } else row := by
  unfold row?
  rw [List.find?_map]
  congr 2
  funext row
  by_cases same : row.key = other <;> simp [same]

/-- What is not switched off stays enabled. -/
theorem Enabled.step {e : KeyEvent} (enabled : t.Enabled key) (on : e ≠ .switch key false) :
    (t.step e).Enabled key := by
  obtain ⟨row, found, on'⟩ := enabled
  cases e with
  | provision name key? draw =>
    simp only [KeyTable.step]
    split
    · rename_i t' p done
      rcases Provision.of_run done with rfl | added
      · exact ⟨row, found, on'⟩
      · obtain ⟨-, -, rfl⟩ := insert_eq_ok_iff.mp added
        exact ⟨row, row?_append_of_some found _, on'⟩
    · exact ⟨row, found, on'⟩
  | switch other enabled =>
    refine ⟨_, (row?_switch other enabled).trans (by rw [found]; rfl), ?_⟩
    have here : row.key = key := by simpa using List.find?_some found
    dsimp only
    split
    · rename_i same
      cases enabled with
      | true => rfl
      | false => exact absurd (by rw [← same, here]) on
    · exact on'

theorem Enabled.after {events : List KeyEvent} (enabled : t.Enabled key)
    (on : KeyEvent.switch key false ∉ events) : (t.after events).Enabled key := by
  induction events generalizing t with
  | nil => exact enabled
  | cons e rest ih =>
    rw [List.mem_cons, not_or] at on
    exact ih (enabled.step (Ne.symm on.1)) on.2

end KeyTable

end Paymaster

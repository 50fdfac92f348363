/-!
# Entries

Keys with values, in the order in which the keys first came. `List.lookup` is the view:
what changes one key leaves what is found under every other key as it was.
-/

namespace Paymaster

abbrev Entries (κ α : Type) : Type := List (κ × α)

namespace Entries

variable {κ α : Type} [BEq κ]

/-! ## Operations -/

abbrev value? (entries : Entries κ α) (key : κ) : Option α :=
  List.lookup key entries

/-- The entries with the value of a key changed: a known key keeps its place, a new one
comes last. -/
def alter (change : Option α → α) (key : κ) : Entries κ α → Entries κ α
  | [] => [(key, change none)]
  | (k, a) :: rest =>
    if k == key then (k, change (some a)) :: rest else (k, a) :: alter change key rest

/-- The entries with the value of a key set. -/
def put (entries : Entries κ α) (key : κ) (value : α) : Entries κ α :=
  entries.alter (fun _ => value) key

def remove (entries : Entries κ α) (key : κ) : Entries κ α :=
  entries.filter fun e => e.1 != key

/-! ## Keys -/

def keys (entries : Entries κ α) : List κ :=
  entries.map Prod.fst

theorem mem_keys_alter {change : Option α → α} {key k : κ} {entries : Entries κ α}
    (member : k ∈ keys (alter change key entries)) : k = key ∨ k ∈ keys entries := by
  induction entries with
  | nil => simpa [keys, alter] using member
  | cons e rest ih =>
    obtain ⟨k', a⟩ := e
    unfold alter at member
    split at member
    · exact .inr (by simpa [keys] using member)
    · rcases List.mem_cons.mp member with rfl | later
      · exact .inr (by simp [keys])
      · exact (ih later).imp id (List.mem_cons_of_mem _)

theorem nodup_remove {entries : Entries κ α} (nodup : (keys entries).Nodup) (key : κ) :
    (keys (entries.remove key)).Nodup :=
  nodup.sublist (List.filter_sublist.map Prod.fst)

theorem nodup_alter [ReflBEq κ] {entries : Entries κ α} (nodup : (keys entries).Nodup)
    (change : Option α → α) (key : κ) : (keys (alter change key entries)).Nodup := by
  induction entries with
  | nil => simp [keys, alter]
  | cons e rest ih =>
    obtain ⟨k, a⟩ := e
    obtain ⟨fresh, nodup⟩ := List.nodup_cons.mp nodup
    unfold alter
    split
    · exact List.nodup_cons.mpr ⟨fresh, nodup⟩
    · rename_i other
      refine List.nodup_cons.mpr ⟨fun member => ?_, ih nodup⟩
      rcases mem_keys_alter member with same | member
      · exact other (same ▸ BEq.rfl)
      · exact fresh member

/-! ## What is found -/

variable [LawfulBEq κ]

theorem lookup_cons_of_ne {key k : κ} (ne : key ≠ k) (a : α) (rest : Entries κ α) :
    List.lookup key ((k, a) :: rest) = List.lookup key rest := by
  have unequal : (key == k) = false := by simpa using ne
  simp [List.lookup_cons, unequal]

/-- Under the key that was changed stands what the change makes of what stood there. -/
@[simp] theorem lookup_alter_self (change : Option α → α) (key : κ) (entries : Entries κ α) :
    List.lookup key (alter change key entries) = some (change (List.lookup key entries)) := by
  induction entries with
  | nil => simp [alter]
  | cons e rest ih =>
    obtain ⟨k, a⟩ := e
    by_cases h : k = key
    · subst h
      simp [alter]
    · have unequal : (k == key) = false := by simpa using h
      simp [alter, unequal, lookup_cons_of_ne (Ne.symm h), ih]

/-- Under every other key stands what stood there. -/
theorem lookup_alter_of_ne (change : Option α → α) {key other : κ} (ne : other ≠ key)
    (entries : Entries κ α) :
    List.lookup other (alter change key entries) = List.lookup other entries := by
  induction entries with
  | nil => simp [alter, lookup_cons_of_ne ne]
  | cons e rest ih =>
    obtain ⟨k, a⟩ := e
    by_cases h : k = key
    · subst h
      simp [alter, lookup_cons_of_ne ne]
    · have unequal : (k == key) = false := by simpa using h
      by_cases same : other = k
      · subst same
        simp [alter, unequal]
      · simp [alter, unequal, lookup_cons_of_ne same, ih]

/-- Entries with a key set are that key with its value and old entries. -/
theorem mem_put {entries : Entries κ α} {key : κ} {value : α} {e : κ × α}
    (member : e ∈ entries.put key value) : e = (key, value) ∨ e ∈ entries := by
  unfold put at member
  induction entries with
  | nil => exact .inl (List.mem_singleton.mp member)
  | cons first rest ih =>
    obtain ⟨k, a⟩ := first
    unfold alter at member
    split at member
    · rename_i same
      obtain rfl : k = key := by simpa using same
      exact (List.mem_cons.mp member).imp id (List.mem_cons_of_mem _)
    · rcases List.mem_cons.mp member with rfl | later
      · exact .inr List.mem_cons_self
      · exact (ih later).imp id (List.mem_cons_of_mem _)

theorem lookup_put_self (entries : Entries κ α) (key : κ) (value : α) :
    List.lookup key (entries.put key value) = some value :=
  lookup_alter_self _ _ _

theorem lookup_put_of_ne {key other : κ} (ne : other ≠ key) (entries : Entries κ α) (value : α) :
    List.lookup other (entries.put key value) = List.lookup other entries :=
  lookup_alter_of_ne _ ne _

theorem lookup_remove_self (entries : Entries κ α) (key : κ) :
    List.lookup key (entries.remove key) = none := by
  induction entries with
  | nil => rfl
  | cons e rest ih =>
    obtain ⟨k, a⟩ := e
    unfold remove at *
    by_cases same : k = key
    · simpa [same] using ih
    · rw [List.filter_cons_of_pos (by simpa using same), lookup_cons_of_ne (Ne.symm same), ih]

theorem lookup_remove_of_ne {key other : κ} (ne : other ≠ key) (entries : Entries κ α) :
    List.lookup other (entries.remove key) = List.lookup other entries := by
  induction entries with
  | nil => rfl
  | cons e rest ih =>
    obtain ⟨k, a⟩ := e
    unfold remove at *
    by_cases same : k = key
    · subst same
      rw [List.filter_cons_of_neg (by simp), ih, lookup_cons_of_ne ne]
    · rw [List.filter_cons_of_pos (by simpa using same)]
      by_cases here : other = k
      · subst here
        simp
      · rw [lookup_cons_of_ne here, lookup_cons_of_ne here, ih]

/-- Among entries with different keys each one is found. -/
theorem lookup_of_mem {entries : Entries κ α} (nodup : (keys entries).Nodup) {key : κ} {a : α}
    (member : (key, a) ∈ entries) : List.lookup key entries = some a := by
  induction entries with
  | nil => cases member
  | cons e rest ih =>
    obtain ⟨k, b⟩ := e
    obtain ⟨fresh, nodup⟩ := List.nodup_cons.mp nodup
    rcases List.mem_cons.mp member with same | later
    · cases same
      simp
    · have other : key ≠ k := by
        intro same
        subst same
        exact fresh (List.mem_map.mpr ⟨_, later, rfl⟩)
      rw [lookup_cons_of_ne other, ih nodup later]

theorem not_mem_keys_of_lookup {entries : Entries κ α} {key : κ}
    (absent : List.lookup key entries = none) : key ∉ keys entries := by
  intro member
  obtain ⟨e, inside, rfl⟩ := List.mem_map.mp member
  simpa using List.lookup_eq_none_iff.mp absent e inside

/-- The value of a new key comes last. -/
theorem put_of_not_mem {entries : Entries κ α} {key : κ} (fresh : key ∉ keys entries) (value : α) :
    entries.put key value = entries ++ [(key, value)] := by
  unfold put
  induction entries with
  | nil => rfl
  | cons e rest ih =>
    obtain ⟨k, a⟩ := e
    simp only [keys, List.map_cons, List.mem_cons, not_or] at fresh
    have unequal : (k == key) = false := by simpa using Ne.symm fresh.1
    simp only [alter, unequal, ih fresh.2]
    rfl

theorem mem_of_lookup {entries : Entries κ α} {key : κ} {a : α}
    (found : List.lookup key entries = some a) : (key, a) ∈ entries := by
  induction entries with
  | nil => cases found
  | cons e rest ih =>
    obtain ⟨k, b⟩ := e
    by_cases same : key = k
    · subst same
      rw [List.lookup_cons_self] at found
      cases found
      simp
    · rw [lookup_cons_of_ne same] at found
      exact List.mem_cons_of_mem _ (ih found)

end Entries

end Paymaster

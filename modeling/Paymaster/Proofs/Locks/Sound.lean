import Paymaster.Locks.Table

/-!
# Lock tables are sound

In a sound table every entry is held, counts the tasks that use it, and is used by exactly
those tasks that stay there (`LockTable.Sound`). Coming and going keep a table sound
(`LockTable.Sound.enter`, `LockTable.Sound.leave`), and neither takes a lock away from a task
that holds it and stays (`LockTable.holds_enter`, `LockTable.holds_leave`).
-/

namespace Paymaster.LockTable

variable {τ : Type}

/-! ## Entries -/

/-- The tasks that use an entry, its holder in front. -/
def Entry.members (entry : Entry τ) : List τ :=
  entry.holder.toList ++ entry.waiting

/-- An entry in use. -/
structure Entry.Sound (entry : Entry τ) : Prop where
  held : entry.holder ≠ none
  counted : entry.users = entry.members.length
  nodup : entry.members.Nodup

namespace Entry

variable {entry : Entry τ} {task : τ}

theorem members_of_holder {holder : τ} (held : entry.holder = some holder) :
    entry.members = holder :: entry.waiting := by
  simp [members, held]

theorem mem_of_holder (held : entry.holder = some task) : task ∈ entry.members := by
  simp [members_of_holder held]

theorem Sound.holder (sound : entry.Sound) : ∃ holder, entry.holder = some holder :=
  Option.ne_none_iff_exists'.mp sound.held

/-- The task in front holds the lock. -/
theorem Sound.holder_of_front (sound : entry.Sound) {rest : List τ}
    (members : entry.members = task :: rest) : entry.holder = some task := by
  obtain ⟨holder, held⟩ := sound.holder
  rw [members_of_holder held] at members
  rw [held, (List.cons.inj members).1]

theorem sound_fresh (serial : Nat) (task : τ) :
    ((⟨serial, 0, none, []⟩ : Entry τ).join task).Sound :=
  ⟨Option.some_ne_none task, rfl, by simp [Entry.join, members]⟩

theorem members_join (sound : entry.Sound) :
    (entry.join task).members = entry.members ++ [task] := by
  obtain ⟨holder, held⟩ := sound.holder
  simp [join, members, held]

theorem Sound.join (sound : entry.Sound) (new : task ∉ entry.members) :
    (entry.join task).Sound := by
  obtain ⟨holder, held⟩ := sound.holder
  refine ⟨?_, ?_, ?_⟩
  · simp [Entry.join, held]
  · rw [members_join sound, List.length_append, ← sound.counted]
    simp [Entry.join, held]
  · rw [members_join sound]
    exact List.nodup_append.mpr ⟨sound.nodup, by simp, by
      intro a member b last same
      subst same
      rw [List.mem_singleton] at last
      subst last
      exact new member⟩

theorem holder_join {holder : τ} (held : entry.holder = some holder) :
    (entry.join task).holder = some holder := by
  simp [join, held]

@[simp] theorem serial_join : (entry.join task).serial = entry.serial := by
  unfold join
  split <;> rfl

variable [DecidableEq τ]

theorem members_part (sound : entry.Sound) :
    (entry.part task).members = entry.members.erase task := by
  obtain ⟨holder, held⟩ := sound.holder
  by_cases own : holder = task
  · subst own
    cases waiting : entry.waiting <;> simp [part, members, held, waiting]
  · simp [part, members, held, own]

/-- After a task went the entry is unused or sound. -/
theorem Sound.part (sound : entry.Sound) (member : task ∈ entry.members) :
    ((entry.part task).users = 0 ∧ entry.members = [task]) ∨
      (entry.part task).users ≠ 0 ∧ (entry.part task).Sound := by
  have counted : (entry.part task).users = (entry.part task).members.length := by
    rw [members_part sound, List.length_erase_of_mem member, ← sound.counted]
    unfold Entry.part
    split <;> rfl
  by_cases last : (entry.part task).users = 0
  · refine .inl ⟨last, ?_⟩
    rw [counted, members_part sound, List.length_erase_of_mem member] at last
    have one : entry.members.length = 1 := by
      have := List.length_pos_of_mem member
      omega
    obtain ⟨only, same⟩ := List.length_eq_one_iff.mp one
    rw [same, List.mem_singleton] at member
    rw [same, member]
  · refine .inr ⟨last, ⟨?_, counted, ?_⟩⟩
    · -- The task that follows a holder is the first that waits.
      intro free
      obtain ⟨holder, held⟩ := sound.holder
      rw [counted] at last
      unfold Entry.part at free last
      by_cases own : entry.holder = some task
      · rw [if_pos own] at free last
        cases waiting : entry.waiting with
        | nil => simp [members, waiting] at last
        | cons next rest => simp [waiting] at free
      · rw [if_neg own] at free
        exact sound.held free
    · rw [members_part sound]
      exact sound.nodup.erase task

theorem holder_part {holder : τ} (held : entry.holder = some holder) (other : task ≠ holder) :
    (entry.part task).holder = some holder := by
  have notOwn : entry.holder ≠ some task := by
    rw [held]
    exact fun same => other (Option.some.inj same).symm
  rw [part, if_neg notOwn, held]

@[simp] theorem serial_part : (entry.part task).serial = entry.serial := by
  unfold part
  split <;> rfl

end Entry

/-! ## Tables -/

/-- A task holds the lock of a key. -/
def Holds (t : LockTable τ) (key : Text) (task : τ) : Prop :=
  ∃ entry, t.find? key = some entry ∧ entry.holder = some task

variable {t : LockTable τ} {task : τ} {key : Text}

/-- Two tasks do not hold one lock. -/
theorem Holds.unique {task' : τ} (holds : t.Holds key task) (holds' : t.Holds key task') :
    task = task' := by
  obtain ⟨entry, found, held⟩ := holds
  obtain ⟨entry', found', held'⟩ := holds'
  rw [found] at found'
  cases found'
  rw [held] at held'
  exact Option.some.inj held'

/-- The entry to which a task comes. -/
def entryAt (t : LockTable τ) (key : Text) : Entry τ :=
  (t.find? key).getD { serial := t.next }

theorem entryAt_of_find? {entry : Entry τ} (found : t.find? key = some entry) :
    t.entryAt key = entry := by
  rw [entryAt, found, Option.getD_some]

theorem members_entryAt : task ∈ (t.entryAt key).members ↔
    ∃ entry, t.find? key = some entry ∧ entry.serial = (t.entryAt key).serial ∧
      task ∈ entry.members := by
  unfold entryAt
  cases t.find? key with
  | none => simp [Entry.members]
  | some entry => simp

variable [DecidableEq τ]

/-- A table in which entries and stays agree. -/
structure Sound (t : LockTable τ) : Prop where
  keys : t.entries.keys.Nodup
  entry : ∀ key entry, t.find? key = some entry → entry.Sound
  stay : ∀ task key serial, t.stays.lookup task = some ⟨key, serial⟩ ↔
    ∃ entry, t.find? key = some entry ∧ entry.serial = serial ∧ task ∈ entry.members

theorem Sound.empty : Sound ({} : LockTable τ) :=
  ⟨List.Pairwise.nil, fun _ _ found => (nomatch found),
    fun _ _ _ => ⟨fun found => (nomatch found), fun ⟨_, found, _⟩ => (nomatch found)⟩⟩

theorem Sound.stay_of_holds (sound : t.Sound) (holds : t.Holds key task) :
    ∃ serial, t.stays.lookup task = some ⟨key, serial⟩ := by
  obtain ⟨entry, found, held⟩ := holds
  exact ⟨entry.serial, (sound.stay task key entry.serial).mpr
    ⟨entry, found, rfl, Entry.mem_of_holder held⟩⟩

/-- A task that is inside holds the lock of the key where it stays. -/
theorem Sound.holds_of_isInside (sound : t.Sound) (inside : t.isInside task = true) :
    ∃ key serial, t.stays.lookup task = some ⟨key, serial⟩ ∧ t.Holds key task := by
  obtain ⟨⟨key, entry⟩, member, held⟩ := List.any_eq_true.mp inside
  have holds : t.Holds key task :=
    ⟨entry, Entries.lookup_of_mem sound.keys member, by simpa using held⟩
  obtain ⟨serial, stays⟩ := sound.stay_of_holds holds
  exact ⟨key, serial, stays, holds⟩

theorem isInside_of_holds (holds : t.Holds key task) : t.isInside task = true := by
  obtain ⟨entry, found, held⟩ := holds
  exact List.any_eq_true.mpr ⟨(key, entry), Entries.mem_of_lookup found, by simpa using held⟩

/-- A table has entries exactly if tasks stay there. -/
theorem Sound.isEmpty_eq_false_iff (sound : t.Sound) :
    t.isEmpty = false ↔ ∃ task stay, t.stays.lookup task = some stay := by
  constructor
  · intro used
    obtain ⟨⟨key, entry⟩, member⟩ := List.exists_mem_of_ne_nil t.entries (by
      intro none
      rw [isEmpty, none] at used
      cases used)
    have found : t.find? key = some entry := Entries.lookup_of_mem sound.keys member
    obtain ⟨holder, held⟩ := (sound.entry key entry found).holder
    obtain ⟨serial, stays⟩ := sound.stay_of_holds ⟨entry, found, held⟩
    exact ⟨holder, ⟨key, serial⟩, stays⟩
  · intro given
    rcases given with ⟨task, ⟨key, serial⟩, stays⟩
    obtain ⟨entry, found, -⟩ := (sound.stay task key serial).mp stays
    have member := Entries.mem_of_lookup found
    cases none : t.entries with
    | nil =>
      rw [none] at member
      cases member
    | cons e rest =>
      rw [isEmpty, none]
      rfl

/-! ## Coming -/

theorem enter_of_isPresent {address : Text} (present : t.isPresent task = true) :
    t.enter task address = t :=
  if_pos present

theorem Sound.members_join (sound : t.Sound) :
    ((t.entryAt key).join task).members = (t.entryAt key).members ++ [task] := by
  cases found : t.find? key with
  | none =>
    rw [entryAt, found]
    rfl
  | some entry =>
    rw [entryAt_of_find? found]
    exact Entry.members_join (sound.entry key entry found)

theorem Sound.join_entryAt (sound : t.Sound) (new : t.stays.lookup task = none) :
    ((t.entryAt key).join task).Sound := by
  cases found : t.find? key with
  | none =>
    rw [entryAt, found]
    exact Entry.sound_fresh t.next task
  | some entry =>
    rw [entryAt_of_find? found]
    refine (sound.entry key entry found).join fun member => ?_
    rw [(sound.stay task key entry.serial).mpr ⟨entry, found, rfl, member⟩] at new
    cases new

theorem enter_of_new {address : Text} (new : t.stays.lookup task = none) :
    (t.enter task address).entries
        = t.entries.put address.lower ((t.entryAt address.lower).join task) ∧
      (t.enter task address).stays
        = t.stays.put task ⟨address.lower, (t.entryAt address.lower).serial⟩ := by
  unfold enter entryAt
  rw [new]
  simp only [Option.isSome_none, Bool.false_eq_true, if_false]
  cases t.find? address.lower <;> exact ⟨rfl, rfl⟩

/-- The entries after a new task came. -/
theorem find?_enter {address : Text} (new : t.stays.lookup task = none) (key : Text) :
    (t.enter task address).find? key =
      if key = address.lower then some ((t.entryAt key).join task) else t.find? key := by
  rw [find?, (enter_of_new new).1]
  split
  · rename_i same
    subst same
    exact Entries.lookup_put_self _ _ _
  · rename_i other
    exact Entries.lookup_put_of_ne other _ _

theorem stays_enter {address : Text} (new : t.stays.lookup task = none) (task' : τ) :
    (t.enter task address).stays.lookup task' =
      if task' = task then some ⟨address.lower, (t.entryAt address.lower).serial⟩
      else t.stays.lookup task' := by
  rw [(enter_of_new new).2]
  split
  · rename_i same
    subst same
    exact Entries.lookup_put_self _ _ _
  · rename_i other
    exact Entries.lookup_put_of_ne other _ _

theorem stays_enter_of_ne {address : Text} {task' : τ} (other : task' ≠ task) :
    (t.enter task address).stays.lookup task' = t.stays.lookup task' := by
  by_cases present : t.isPresent task = true
  · rw [enter_of_isPresent present]
  · rw [stays_enter (Option.not_isSome_iff_eq_none.mp present), if_neg other]

/-- After a new task came, tasks still stay where the entries list them. -/
theorem Sound.stay_enter (sound : t.Sound) {address : Text} (new : t.stays.lookup task = none)
    (task' : τ) (key : Text) (serial : Nat) :
    (t.enter task address).stays.lookup task' = some ⟨key, serial⟩ ↔
      ∃ entry, (t.enter task address).find? key = some entry ∧ entry.serial = serial ∧
        task' ∈ entry.members := by
  have absent (key' : Text) (entry : Entry τ) (found : t.find? key' = some entry) :
      task ∉ entry.members := by
    intro member
    rw [(sound.stay task key' entry.serial).mpr ⟨entry, found, rfl, member⟩] at new
    cases new
  rw [stays_enter new]
  by_cases own : task' = task
  · subst own
    rw [if_pos rfl]
    constructor
    · intro same
      cases same
      exact ⟨_, by rw [find?_enter new, if_pos rfl], by simp, by simp [sound.members_join]⟩
    · intro given
      rcases given with ⟨entry, found, rfl, member⟩
      rw [find?_enter new] at found
      split at found
      · rename_i same
        subst same
        cases found
        simp
      · exact absurd member (absent key entry found)
  · rw [if_neg own, sound.stay, find?_enter new]
    by_cases here : key = address.lower
    · rw [if_pos here]
      constructor
      · intro given
        rcases given with ⟨entry, found, rfl, member⟩
        exact ⟨_, rfl, by simp [entryAt_of_find? found],
          by rw [sound.members_join, entryAt_of_find? found]; simp [member]⟩
      · intro given
        rcases given with ⟨entry, found, rfl, member⟩
        cases found
        rw [sound.members_join, List.mem_append, List.mem_singleton] at member
        obtain ⟨entry, found, same, member⟩ :=
          members_entryAt.mp (member.resolve_right own)
        exact ⟨entry, found, by simp [same], member⟩
    · rw [if_neg here]

theorem Sound.enter (sound : t.Sound) (task : τ) (address : Text) :
    (t.enter task address).Sound := by
  by_cases present : t.isPresent task = true
  · rw [enter_of_isPresent present]
    exact sound
  have new : t.stays.lookup task = none := Option.not_isSome_iff_eq_none.mp present
  refine ⟨?_, fun key entry found => ?_, sound.stay_enter new⟩
  · rw [(enter_of_new new).1]
    exact Entries.nodup_alter sound.keys _ _
  · rw [find?_enter new] at found
    split at found
    · cases found
      exact sound.join_entryAt new
    · exact sound.entry key entry found

/-- A task that holds a lock still holds it when others came. -/
theorem holds_enter (holds : t.Holds key task) (task' : τ) (address : Text) :
    (t.enter task' address).Holds key task := by
  by_cases present : t.isPresent task' = true
  · rw [enter_of_isPresent present]
    exact holds
  have new : t.stays.lookup task' = none := Option.not_isSome_iff_eq_none.mp present
  obtain ⟨entry, found, held⟩ := holds
  unfold Holds
  rw [find?_enter new]
  split
  · exact ⟨_, rfl, by rw [entryAt_of_find? found, Entry.holder_join held]⟩
  · exact ⟨entry, found, held⟩

/-- Wherever a task stays after it came, it stayed before or has come to the address. -/
theorem key_of_stays_enter {address : Text} {task' : τ} {stay : Stay}
    (stays : (t.enter task address).stays.lookup task' = some stay) :
    t.stays.lookup task' = some stay ∨ task' = task ∧ stay.key = address.lower := by
  by_cases present : t.isPresent task = true
  · rw [enter_of_isPresent present] at stays
    exact .inl stays
  have new : t.stays.lookup task = none := Option.not_isSome_iff_eq_none.mp present
  rw [stays_enter new] at stays
  split at stays
  · rename_i own
    cases stays
    exact .inr ⟨own, rfl⟩
  · exact .inl stays

/-! ## Going -/

theorem leave_of_absent (absent : t.stays.lookup task = none) : t.leave task = t := by
  unfold leave
  rw [absent]

/-- What a task leaves behind at its entry. -/
def Entry.rest? (entry : Entry τ) (task : τ) : Option (Entry τ) :=
  if (entry.part task).users = 0 then none else some (entry.part task)

/-- Left are all tasks but the one that went. -/
theorem Entry.mem_rest? {entry : Entry τ} (sound : entry.Sound) (member : task ∈ entry.members)
    {serial : Nat} {task' : τ} :
    (∃ rest, entry.rest? task = some rest ∧ rest.serial = serial ∧ task' ∈ rest.members) ↔
      entry.serial = serial ∧ task' ∈ entry.members ∧ task' ≠ task := by
  unfold rest?
  rcases sound.part member with ⟨last, only⟩ | ⟨more, -⟩
  · rw [if_pos last, only]
    constructor
    · intro given
      rcases given with ⟨rest, none, -⟩
      cases none
    · intro given
      rcases given with ⟨-, here, other⟩
      exact absurd (List.mem_singleton.mp here) other
  · rw [if_neg more]
    constructor
    · intro given
      rcases given with ⟨rest, some, same, here⟩
      cases some
      rw [members_part sound, sound.nodup.mem_erase_iff] at here
      exact ⟨by simpa using same, here.2, here.1⟩
    · intro given
      rcases given with ⟨same, here, other⟩
      exact ⟨_, rfl, by simpa using same, by
        rw [members_part sound, sound.nodup.mem_erase_iff]
        exact ⟨other, here⟩⟩

/-- When the task in front goes, the others move up. -/
theorem Entry.Sound.rest?_of_front {entry : Entry τ} (sound : entry.Sound) {rest : List τ}
    (members : entry.members = task :: rest) (more : rest ≠ []) :
    ∃ entry', entry.rest? task = some entry' ∧ entry'.members = rest := by
  have member : task ∈ entry.members := by
    rw [members]
    exact List.mem_cons_self
  have parted : (entry.part task).members = rest := by
    rw [members_part sound, members, List.erase_cons_head]
  refine ⟨entry.part task, ?_, parted⟩
  unfold rest?
  rcases sound.part member with ⟨-, only⟩ | ⟨still, -⟩
  · rw [members] at only
    exact absurd (List.cons.inj only).2 more
  · rw [if_neg still]

theorem leave_of_stay {serial : Nat} {entry : Entry τ}
    (stays : t.stays.lookup task = some ⟨key, serial⟩) (found : t.find? key = some entry)
    (same : entry.serial = serial) :
    (t.leave task).stays = t.stays.remove task ∧
      (t.leave task).entries = match entry.rest? task with
        | none => t.entries.remove key
        | some rest => t.entries.put key rest := by
  unfold leave Entry.rest?
  rw [stays]
  simp only [found, same, if_true]
  split <;> exact ⟨rfl, rfl⟩

/-- The entries after a task went. -/
theorem find?_leave {serial : Nat} {entry : Entry τ}
    (stays : t.stays.lookup task = some ⟨key, serial⟩) (found : t.find? key = some entry)
    (same : entry.serial = serial) (key' : Text) :
    (t.leave task).find? key' = if key' = key then entry.rest? task else t.find? key' := by
  rw [find?, (leave_of_stay stays found same).2]
  by_cases here : key' = key
  · subst here
    rw [if_pos rfl]
    cases entry.rest? task with
    | none => exact Entries.lookup_remove_self _ _
    | some rest => exact Entries.lookup_put_self _ _ _
  · rw [if_neg here]
    cases entry.rest? task with
    | none => exact Entries.lookup_remove_of_ne here _
    | some rest => exact Entries.lookup_put_of_ne here _ _

/-- After a task went, the others still stay where the entries list them. -/
theorem Sound.stay_leave (sound : t.Sound) {serial : Nat} {entry : Entry τ}
    (stays : t.stays.lookup task = some ⟨key, serial⟩) (found : t.find? key = some entry)
    (same : entry.serial = serial) (member : task ∈ entry.members) (task' : τ) (key' : Text)
    (serial' : Nat) :
    (t.leave task).stays.lookup task' = some ⟨key', serial'⟩ ↔
      ∃ entry', (t.leave task).find? key' = some entry' ∧ entry'.serial = serial' ∧
        task' ∈ entry'.members := by
  rw [(leave_of_stay stays found same).1, find?_leave stays found same]
  by_cases here : key' = key
  · subst here
    rw [if_pos rfl, Entry.mem_rest? (sound.entry key' entry found) member]
    by_cases own : task' = task
    · subst own
      rw [Entries.lookup_remove_self]
      exact ⟨fun found => (nomatch found), fun gone => absurd rfl gone.2.2⟩
    · rw [Entries.lookup_remove_of_ne own, sound.stay]
      constructor
      · intro given
        rcases given with ⟨entry', found', same', member'⟩
        rw [found] at found'
        cases found'
        exact ⟨same', member', own⟩
      · intro given
        rcases given with ⟨same', member', -⟩
        exact ⟨entry, found, same', member'⟩
  · rw [if_neg here]
    by_cases own : task' = task
    · subst own
      rw [Entries.lookup_remove_self]
      refine ⟨fun found => (nomatch found), fun elsewhere => ?_⟩
      -- The task stayed at one entry only.
      rw [(sound.stay task' key' serial').mpr elsewhere] at stays
      cases stays
      exact absurd rfl here
    · rw [Entries.lookup_remove_of_ne own, sound.stay]

theorem Sound.leave (sound : t.Sound) (task : τ) : (t.leave task).Sound := by
  rcases stays : t.stays.lookup task with _ | ⟨key, serial⟩
  · rw [leave_of_absent stays]
    exact sound
  obtain ⟨entry, found, same, member⟩ := (sound.stay task key serial).mp stays
  have entries := find?_leave stays found same
  have parted := (sound.entry key entry found).part member
  refine ⟨?_, fun key' entry' found' => ?_,
    sound.stay_leave stays found same member⟩
  · rw [(leave_of_stay stays found same).2]
    cases entry.rest? task with
    | none => exact Entries.nodup_remove sound.keys key
    | some rest => exact Entries.nodup_alter sound.keys _ key
  · rw [entries] at found'
    split at found'
    · unfold Entry.rest? at found'
      rcases parted with ⟨last, -⟩ | ⟨more, sound'⟩
      · rw [if_pos last] at found'
        cases found'
      · rw [if_neg more] at found'
        cases found'
        exact sound'
    · exact sound.entry key' entry' found'

/-- A task that holds a lock still holds it when another one went. -/
theorem Sound.holds_leave (sound : t.Sound) (holds : t.Holds key task) {task' : τ}
    (other : task' ≠ task) : (t.leave task').Holds key task := by
  rcases stays : t.stays.lookup task' with _ | ⟨key', serial⟩
  · rw [leave_of_absent stays]
    exact holds
  obtain ⟨entry, found, same, member⟩ := (sound.stay task' key' serial).mp stays
  obtain ⟨entry', found', held⟩ := holds
  unfold Holds
  rw [find?_leave stays found same]
  split
  · rename_i here
    subst here
    rw [found] at found'
    cases found'
    have member' : task ∈ entry.members := Entry.mem_of_holder held
    obtain ⟨rest, some, -, -⟩ := (Entry.mem_rest? (sound.entry key entry found) member).mpr
      ⟨rfl, member', Ne.symm other⟩
    refine ⟨rest, some, ?_⟩
    unfold Entry.rest? at some
    split at some
    · cases some
    · cases some
      exact Entry.holder_part held other
  · exact ⟨entry', found', held⟩

theorem Sound.stays_leave_of_ne (sound : t.Sound) {task' : τ} (other : task' ≠ task) :
    (t.leave task).stays.lookup task' = t.stays.lookup task' := by
  rcases stays : t.stays.lookup task with _ | ⟨key, serial⟩
  · rw [leave_of_absent stays]
  · obtain ⟨entry, found, same, -⟩ := (sound.stay task key serial).mp stays
    rw [(leave_of_stay stays found same).1, Entries.lookup_remove_of_ne other]

theorem Sound.stays_leave (sound : t.Sound) : (t.leave task).stays.lookup task = none := by
  rcases stays : t.stays.lookup task with _ | ⟨key, serial⟩
  · rw [leave_of_absent stays, stays]
  · obtain ⟨entry, found, same, -⟩ := (sound.stay task key serial).mp stays
    rw [(leave_of_stay stays found same).1, Entries.lookup_remove_self]

end Paymaster.LockTable

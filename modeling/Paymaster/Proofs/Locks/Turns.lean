import Mathlib.Data.Set.Card
import Paymaster.Proofs.Locks.Serials

/-!
# Turns at a lock table

Tasks come to the locks of one table, wait, run inside and go, in any order: a `LockHall` is a
table with what its tasks are doing, and a move that a task cannot make leaves the hall as it
is (`LockHall.step`). A task that asks for a further lock while it is inside counts as another
task there.

`LockHall.turns_taken` says of every hall that moves lead to that tasks of one lower-case
address exclude each other and share one entry, which stands as long as one of them uses it and
counts them, and that tasks of other addresses have no part in it. The invariant behind it is
`LockHall.Coherent`: what the tasks are doing agrees with a sound table.

What one move does is said in terms of the tasks at a lock in the order in which they came
(`LockHall.queue`): a call joins them at the end (`Coherent.step_call`), the task that holds the
lock goes inside and no other (`Coherent.step_acquire`), and a task that goes leaves the rest in
their order (`Coherent.step_exit`). A task that cannot make a move, and every task whose move it is
not, stays as it is (`LockHall.doing_step_of_ne`).
-/

namespace Paymaster

/-- What a task is doing: the lock that it waits for, or the one that its body runs under. -/
inductive Occupation where
  | away
  | waiting (key : Text)
  | inside (key : Text)
  deriving DecidableEq, Repr

/-- The lock that a task waits for or holds. -/
def Occupation.key? : Occupation → Option Text
  | away => none
  | waiting key | inside key => some key

/-- A lock table and what the tasks that come to it are doing. -/
structure LockHall (τ : Type) where
  table : LockTable τ := {}
  doing : τ → Occupation := fun _ => .away

namespace LockHall

/-- How a task goes: its body returns or raises, or it is cancelled. -/
inductive Exit where
  | returned
  | raised
  | cancelled
  deriving DecidableEq, Repr

inductive Move (τ : Type) where
  | call (task : τ) (address : Text)
  /-- A task that waits goes inside if the lock is its own. -/
  | acquire (task : τ)
  | exit (task : τ) (exit : Exit)

def Move.task {τ : Type} : Move τ → τ
  | call task _ | acquire task | exit task _ => task

variable {τ : Type}

/-- A task waits for the lock of a key or holds it. -/
def Uses (h : LockHall τ) (task : τ) (key : Text) : Prop :=
  (h.doing task).key? = some key

variable [DecidableEq τ]

def come (h : LockHall τ) (task : τ) (address : Text) : LockHall τ :=
  ⟨h.table.enter task address, Function.update h.doing task (.waiting address.lower)⟩

def letIn (h : LockHall τ) (task : τ) (key : Text) : LockHall τ :=
  { h with doing := Function.update h.doing task (.inside key) }

def go (h : LockHall τ) (task : τ) : LockHall τ :=
  ⟨h.table.leave task, Function.update h.doing task .away⟩

/-- A task that waits has no body that could return or raise. -/
def step (h : LockHall τ) : Move τ → LockHall τ
  | .call task address =>
    match h.doing task with
    | .away => h.come task address
    | _ => h
  | .acquire task =>
    match h.doing task with
    | .waiting key => if h.table.isInside task then h.letIn task key else h
    | _ => h
  | .exit task exit =>
    match h.doing task with
    | .away => h
    | .waiting _ => if exit = .cancelled then h.go task else h
    | .inside _ => h.go task

/-- The tasks at a lock in the order in which they came. -/
def queue (h : LockHall τ) (key : Text) : List τ :=
  (h.table.entryAt key).members

def play (h : LockHall τ) (moves : List (Move τ)) : LockHall τ :=
  moves.foldl step h

/-! ## What a move changes -/

/-- All that a move of a task can do. -/
inductive Change (h : LockHall τ) (task : τ) : LockHall τ → Prop
  | none : Change h task h
  | come (address : Text) : h.doing task = .away → Change h task (h.come task address)
  | letIn {key : Text} :
    h.doing task = .waiting key → h.table.isInside task = true →
    Change h task (h.letIn task key)
  | go : Change h task (h.go task)

theorem change_step (h : LockHall τ) (move : Move τ) : h.Change move.task (h.step move) := by
  cases move with
  | call task address =>
    cases doing : h.doing task <;> simp only [step, doing]
    · exact .come address doing
    · exact .none
    · exact .none
  | acquire task =>
    cases doing : h.doing task <;> simp only [step, doing]
    · exact .none
    · split
      · rename_i turn
        exact .letIn doing turn
      · exact .none
    · exact .none
  | exit task exit =>
    cases doing : h.doing task <;> simp only [step, doing]
    · exact .none
    · split
      · exact .go
      · exact .none
    · exact .go

theorem Change.doing_of_ne {h h' : LockHall τ} {task other : τ} (change : h.Change task h')
    (ne : other ≠ task) : h'.doing other = h.doing other := by
  cases change with
  | none => rfl
  | _ => exact Function.update_of_ne ne _ _

/-- A move of one task leaves every other task as it is. -/
theorem doing_step_of_ne (h : LockHall τ) {move : Move τ} {other : τ} (ne : other ≠ move.task) :
    (h.step move).doing other = h.doing other :=
  (h.change_step move).doing_of_ne ne

theorem table_acquire (h : LockHall τ) (task : τ) : (h.step (.acquire task)).table = h.table := by
  cases doing : h.doing task <;> simp only [step, doing]
  split <;> rfl

/-! ## The invariant -/

/-- What the tasks are doing agrees with the table. -/
structure Coherent (h : LockHall τ) : Prop where
  sound : h.table.Sound
  numbered : h.table.Numbered
  stays : ∀ task, (h.table.stays.lookup task).map LockTable.Stay.key = (h.doing task).key?
  holds : ∀ {task key}, h.doing task = .inside key → h.table.Holds key task

namespace Coherent

variable {h : LockHall τ} {task : τ} {key : Text}

theorem empty : Coherent ({} : LockHall τ) :=
  ⟨LockTable.Sound.empty, LockTable.Numbered.empty, fun _ => rfl, fun inside => (nomatch inside)⟩

theorem stay_of_uses (coherent : h.Coherent) (uses : h.Uses task key) :
    ∃ serial, h.table.stays.lookup task = some ⟨key, serial⟩ := by
  have kept := coherent.stays task
  rw [uses, Option.map_eq_some_iff] at kept
  obtain ⟨⟨_, serial⟩, stays, rfl⟩ := kept
  exact ⟨serial, stays⟩

theorem uses_of_stay (coherent : h.Coherent) {serial : Nat}
    (stays : h.table.stays.lookup task = some ⟨key, serial⟩) : h.Uses task key := by
  rw [Uses, ← coherent.stays, stays, Option.map_some]

/-- The tasks that use a lock are the members of its entry. -/
theorem uses_iff (coherent : h.Coherent) :
    h.Uses task key ↔ ∃ entry, h.table.find? key = some entry ∧ task ∈ entry.members := by
  constructor
  · intro uses
    obtain ⟨serial, stays⟩ := coherent.stay_of_uses uses
    obtain ⟨entry, found, -, member⟩ := (coherent.sound.stay task key serial).mp stays
    exact ⟨entry, found, member⟩
  · rintro ⟨entry, found, member⟩
    exact coherent.uses_of_stay
      ((coherent.sound.stay task key entry.serial).mpr ⟨entry, found, rfl, member⟩)

theorem mem_members (coherent : h.Coherent) {entry : LockTable.Entry τ}
    (found : h.table.find? key = some entry) : task ∈ entry.members ↔ h.Uses task key := by
  rw [coherent.uses_iff, found]
  simp

theorem stays_of_away (coherent : h.Coherent) (away : h.doing task = .away) :
    h.table.stays.lookup task = none := by
  have none := coherent.stays task
  rw [away] at none
  exact Option.map_eq_none_iff.mp none

theorem uses_of_holds (coherent : h.Coherent) (holds : h.table.Holds key task) :
    h.Uses task key := by
  obtain ⟨entry, found, held⟩ := holds
  exact (coherent.mem_members found).mp (LockTable.Entry.mem_of_holder held)

/-- A task whose turn it is holds the lock that it uses. -/
theorem holds_of_isInside (coherent : h.Coherent) (uses : h.Uses task key)
    (turn : h.table.isInside task = true) : h.table.Holds key task := by
  obtain ⟨key', serial, stays, holds⟩ := coherent.sound.holds_of_isInside turn
  have same : some key' = some key := (coherent.uses_of_stay stays).symm.trans uses
  cases same
  exact holds

/-! ### Each move -/

theorem come (coherent : h.Coherent) (away : h.doing task = .away) (address : Text) :
    (h.come task address).Coherent := by
  have new := coherent.stays_of_away away
  refine ⟨coherent.sound.enter task address, coherent.numbered.enter task address,
    fun other => ?_, fun {other key} inside => ?_⟩
  · rw [LockHall.come, LockTable.stays_enter new]
    by_cases own : other = task
    · subst own
      simp [Occupation.key?]
    · simpa [own] using coherent.stays other
  · by_cases own : other = task
    · subst own
      simp [LockHall.come] at inside
    · have before : h.doing other = .inside key := by simpa [LockHall.come, own] using inside
      exact LockTable.holds_enter (coherent.holds before) task address

theorem letIn (coherent : h.Coherent) (waits : h.doing task = .waiting key)
    (turn : h.table.isInside task = true) : (h.letIn task key).Coherent := by
  have uses : h.Uses task key := by rw [Uses, waits, Occupation.key?]
  refine ⟨coherent.sound, coherent.numbered, fun other => ?_, fun {other key'} inside => ?_⟩
  · by_cases own : other = task
    · subst own
      simpa [LockHall.letIn, Occupation.key?, waits] using coherent.stays other
    · simpa [LockHall.letIn, own] using coherent.stays other
  · by_cases own : other = task
    · subst own
      have same : key = key' := by simpa [LockHall.letIn] using inside
      subst same
      exact coherent.holds_of_isInside uses turn
    · exact coherent.holds (by simpa [LockHall.letIn, own] using inside)

theorem go (coherent : h.Coherent) (task : τ) : (h.go task).Coherent := by
  refine ⟨coherent.sound.leave task, coherent.numbered.leave coherent.sound task,
    fun other => ?_, fun {other key} inside => ?_⟩
  · by_cases own : other = task
    · subst own
      simp [LockHall.go, coherent.sound.stays_leave, Occupation.key?]
    · simpa [LockHall.go, own, coherent.sound.stays_leave_of_ne own] using coherent.stays other
  · by_cases own : other = task
    · subst own
      simp [LockHall.go] at inside
    · have before : h.doing other = .inside key := by simpa [LockHall.go, own] using inside
      exact coherent.sound.holds_leave (coherent.holds before) (Ne.symm own)

theorem step (coherent : h.Coherent) (move : Move τ) : (h.step move).Coherent := by
  have change := h.change_step move
  generalize h.step move = h' at change ⊢
  cases change with
  | none => exact coherent
  | come address away => exact coherent.come away address
  | letIn waits turn => exact coherent.letIn waits turn
  | go => exact coherent.go move.task

theorem play (coherent : h.Coherent) (moves : List (Move τ)) : (h.play moves).Coherent := by
  induction moves generalizing h with
  | nil => exact coherent
  | cons move rest ih => exact ih (coherent.step move)

/-! ## Who uses a lock -/

theorem exclusive (coherent : h.Coherent) {other : τ} (inside : h.doing task = .inside key)
    (inside' : h.doing other = .inside key) : task = other :=
  (coherent.holds inside).unique (coherent.holds inside')

/-- Every task came to the entry that stands at the lock it uses. -/
theorem shared (coherent : h.Coherent) (uses : h.Uses task key) :
    ∃ entry, h.table.find? key = some entry ∧
      h.table.stays.lookup task = some ⟨key, entry.serial⟩ := by
  obtain ⟨serial, stays⟩ := coherent.stay_of_uses uses
  obtain ⟨entry, found, same, -⟩ := (coherent.sound.stay task key serial).mp stays
  exact ⟨entry, found, by rw [stays, same]⟩

/-- Tasks that came to one entry use one lock. -/
theorem same_key (coherent : h.Coherent) {other : τ} {key' : Text} {serial : Nat}
    (stays : h.table.stays.lookup task = some ⟨key, serial⟩)
    (stays' : h.table.stays.lookup other = some ⟨key', serial⟩) : key = key' := by
  obtain ⟨entry, found, same, -⟩ := (coherent.sound.stay task key serial).mp stays
  obtain ⟨entry', found', same', -⟩ := (coherent.sound.stay other key' serial).mp stays'
  exact coherent.numbered.apart key key' entry entry' found found' (same.trans same'.symm)

theorem find?_isSome (coherent : h.Coherent) (key : Text) :
    (h.table.find? key).isSome ↔ ∃ task, h.Uses task key := by
  constructor
  · intro some
    obtain ⟨entry, found⟩ := Option.isSome_iff_exists.mp some
    obtain ⟨holder, held⟩ := (coherent.sound.entry key entry found).holder
    exact ⟨holder, coherent.uses_of_holds ⟨entry, found, held⟩⟩
  · rintro ⟨task, uses⟩
    obtain ⟨entry, found, -⟩ := coherent.shared uses
    rw [found, Option.isSome_some]

theorem counted (coherent : h.Coherent) {entry : LockTable.Entry τ}
    (found : h.table.find? key = some entry) :
    entry.users = {task | h.Uses task key}.ncard := by
  have sound := coherent.sound.entry key entry found
  have users : {task | h.Uses task key} = entry.members.toFinset := by
    ext task
    simp [coherent.mem_members found]
  rw [users, Set.ncard_coe_finset, List.toFinset_card_of_nodup sound.nodup, sound.counted]

theorem isEmpty_iff (coherent : h.Coherent) :
    h.table.isEmpty = true ↔ ∀ task, h.doing task = .away := by
  have used : h.table.isEmpty = false ↔ ∃ task, h.doing task ≠ .away := by
    rw [coherent.sound.isEmpty_eq_false_iff]
    refine exists_congr fun task => ?_
    rw [← Option.isSome_iff_exists, ← Option.isSome_map (f := LockTable.Stay.key),
      coherent.stays]
    cases h.doing task <;> simp [Occupation.key?]
  rw [← not_iff_not, Bool.not_eq_true, used, not_forall]

/-! ## The entry stays -/

/-- A task that uses a lock before and after a move stays at its entry. -/
theorem stays_step (coherent : h.Coherent) {move : Move τ} (before : h.Uses task key)
    (after : (h.step move).Uses task key) :
    (h.step move).table.stays.lookup task = h.table.stays.lookup task := by
  have change := h.change_step move
  generalize h.step move = h' at change after ⊢
  cases change with
  | none => rfl
  | come address away =>
    have ne : task ≠ move.task := by
      intro same
      simp [Uses, same, away, Occupation.key?] at before
    exact LockTable.stays_enter_of_ne ne
  | letIn waits turn => rfl
  | go =>
    have ne : task ≠ move.task := by
      intro same
      simp [Uses, LockHall.go, same, Occupation.key?] at after
    exact coherent.sound.stays_leave_of_ne ne

/-- A task that uses a lock throughout stays at its entry. -/
theorem stays_play (coherent : h.Coherent) {moves : List (Move τ)}
    (throughout : ∀ before, before <+: moves → (h.play before).Uses task key) :
    (h.play moves).table.stays.lookup task = h.table.stays.lookup task := by
  induction moves generalizing h with
  | nil => rfl
  | cons move rest ih =>
    have now : h.Uses task key := throughout [] List.nil_prefix
    have next : (h.step move).Uses task key :=
      throughout [move] (by simp)
    have later := ih (coherent.step move) fun before start =>
      throughout (move :: before) (List.cons_prefix_cons.mpr ⟨rfl, start⟩)
    exact later.trans (coherent.stays_step now next)

/-- The entry of a lock stands as long as a task uses it. -/
theorem entry_kept (coherent : h.Coherent) {moves : List (Move τ)}
    (throughout : ∀ before, before <+: moves → (h.play before).Uses task key) :
    ∃ entry entry', h.table.find? key = some entry ∧
      (h.play moves).table.find? key = some entry' ∧ entry'.serial = entry.serial := by
  obtain ⟨entry, found, stays⟩ := coherent.shared (throughout [] List.nil_prefix)
  obtain ⟨entry', found', stays'⟩ :=
    (coherent.play moves).shared (throughout moves List.prefix_rfl)
  rw [coherent.stays_play throughout, stays] at stays'
  have same := (LockTable.Stay.mk.inj (Option.some.inj stays')).2
  exact ⟨entry, entry', found, found', same.symm⟩

/-! ## What a move does -/

/-- A task that is away comes to wait for the lock of an address, behind all that came before it.
Called anywhere else, it stays as it is. -/
theorem step_call (coherent : h.Coherent) (task : τ) (address : Text) :
    (h.doing task = .away →
      (h.step (.call task address)).doing task = .waiting address.lower ∧
        (h.step (.call task address)).queue address.lower = h.queue address.lower ++ [task]) ∧
    (h.doing task ≠ .away → h.step (.call task address) = h) := by
  constructor
  · intro away
    have moved : h.step (.call task address) = h.come task address := by
      simp only [LockHall.step, away]
    have found : (h.table.enter task address).find? address.lower =
        some ((h.table.entryAt address.lower).join task) := by
      rw [LockTable.find?_enter (coherent.stays_of_away away), if_pos rfl]
    rw [moved]
    refine ⟨Function.update_self _ _ _, ?_⟩
    rw [queue, LockHall.come, LockTable.entryAt_of_find? found]
    exact coherent.sound.members_join
  · intro elsewhere
    cases doing : h.doing task with
    | away => exact absurd doing elsewhere
    | _ => simp only [LockHall.step, doing]

/-- A task that waits goes inside if it holds its lock, and waits on if it does not. Away or
inside, it stays as it is. -/
theorem step_acquire (coherent : h.Coherent) (task : τ) :
    (∀ key, h.doing task = .waiting key → h.table.Holds key task →
      h.step (.acquire task) = h.letIn task key) ∧
    (∀ key, h.doing task = .waiting key → ¬ h.table.Holds key task →
      h.step (.acquire task) = h) ∧
    ((∀ key, h.doing task ≠ .waiting key) → h.step (.acquire task) = h) := by
  refine ⟨fun key waits holds => ?_, fun key waits others => ?_, fun elsewhere => ?_⟩
  · simp only [LockHall.step, waits, LockTable.isInside_of_holds holds, if_true]
  · have uses : h.Uses task key := by rw [Uses, waits, Occupation.key?]
    have turn : ¬ h.table.isInside task = true := fun turn =>
      others (coherent.holds_of_isInside uses turn)
    simp only [LockHall.step, waits, if_neg turn]
  · cases doing : h.doing task with
    | waiting key => exact absurd doing (elsewhere key)
    | _ => simp only [LockHall.step, doing]

/-- A task that uses a lock and goes leaves it to the others in their order. -/
theorem queue_go (coherent : h.Coherent) (uses : h.Uses task key) :
    (h.go task).queue key = (h.queue key).erase task := by
  obtain ⟨entry, found, stays⟩ := coherent.shared uses
  have sound := coherent.sound.entry key entry found
  have member := (coherent.mem_members found).mpr uses
  have left := LockTable.find?_leave stays found rfl key
  rw [if_pos rfl] at left
  rw [queue, queue, LockHall.go, LockTable.entryAt_of_find? found, LockTable.entryAt, left,
    LockTable.Entry.rest?]
  rcases sound.part member with ⟨last, only⟩ | ⟨more, -⟩
  · rw [if_pos last, only, List.erase_cons_head]
    rfl
  · rw [if_neg more, Option.getD_some]
    exact LockTable.Entry.members_part sound

/-- A task goes from inside by any exit, and from waiting if it is cancelled; it is away then, and
the others keep their order. A task that waits does not return or raise, and one that is away stays
away. -/
theorem step_exit (coherent : h.Coherent) (task : τ) (exit : Exit) :
    (∀ key, h.doing task = .inside key ∨ h.doing task = .waiting key ∧ exit = .cancelled →
      (h.step (.exit task exit)).doing task = .away ∧
        (h.step (.exit task exit)).queue key = (h.queue key).erase task) ∧
    (∀ key, h.doing task = .waiting key → exit ≠ .cancelled → h.step (.exit task exit) = h) ∧
    (h.doing task = .away → h.step (.exit task exit) = h) := by
  refine ⟨fun key leaves => ?_, fun key waits other => ?_, fun away => ?_⟩
  · have moved : h.step (.exit task exit) = h.go task := by
      rcases leaves with inside | ⟨waits, rfl⟩
      · simp only [LockHall.step, inside]
      · simp only [LockHall.step, waits, if_true]
    have uses : h.Uses task key := by
      rcases leaves with inside | ⟨waits, -⟩
      · rw [Uses, inside, Occupation.key?]
      · rw [Uses, waits, Occupation.key?]
    rw [moved]
    exact ⟨Function.update_self _ _ _, coherent.queue_go uses⟩
  · simp only [LockHall.step, waits, if_neg other]
  · simp only [LockHall.step, away]

/-! ## Who blocks whom -/

/-- A task whose turn it is goes inside. -/
theorem inside_of_holds (coherent : h.Coherent) (holds : h.table.Holds key task) :
    (h.step (.acquire task)).doing task = .inside key := by
  have uses := coherent.uses_of_holds holds
  cases doing : h.doing task with
  | away => simp [Uses, doing, Occupation.key?] at uses
  | waiting key' =>
    obtain rfl : key' = key := by simpa [Uses, doing, Occupation.key?] using uses
    rw [(coherent.step_acquire task).1 key' doing holds]
    exact Function.update_self _ _ _
  | inside key' =>
    obtain rfl : key' = key := by simpa [Uses, doing, Occupation.key?] using uses
    rw [(coherent.step_acquire task).2.2 (by simp [doing]), doing]

/-- What keeps a task waiting is another task that holds its lock. -/
theorem blocker (coherent : h.Coherent) (waits : h.doing task = .waiting key) :
    (h.step (.acquire task)).doing task = .inside key ∨
      ∃ other, other ≠ task ∧ h.Uses other key ∧ h.table.Holds key other := by
  have uses : h.Uses task key := by rw [Uses, waits, Occupation.key?]
  obtain ⟨entry, found, -⟩ := coherent.shared uses
  obtain ⟨holder, held⟩ := (coherent.sound.entry key entry found).holder
  have holds : h.table.Holds key holder := ⟨entry, found, held⟩
  by_cases own : holder = task
  · subst own
    exact .inl (coherent.inside_of_holds holds)
  · exact .inr ⟨holder, own, coherent.uses_of_holds holds, holds⟩

theorem find?_go (coherent : h.Coherent) (elsewhere : ¬ h.Uses task key) :
    (h.go task).table.find? key = h.table.find? key := by
  rcases stays : h.table.stays.lookup task with _ | ⟨key', serial⟩
  · rw [LockHall.go, LockTable.leave_of_absent stays]
  · have uses := coherent.uses_of_stay stays
    have ne : key ≠ key' := by
      rintro rfl
      exact elsewhere uses
    obtain ⟨entry, found, same, -⟩ := (coherent.sound.stay task key' serial).mp stays
    rw [LockHall.go, LockTable.find?_leave stays found same, if_neg ne]

/-- The moves of a task that uses another lock leave the entry of a lock as it is. -/
theorem find?_step (coherent : h.Coherent) {move : Move τ} (before : ¬ h.Uses move.task key)
    (after : ¬ (h.step move).Uses move.task key) :
    (h.step move).table.find? key = h.table.find? key := by
  have change := h.change_step move
  generalize h.step move = h' at change after ⊢
  cases change with
  | none => rfl
  | come address away =>
    have ne : key ≠ address.lower := by
      intro same
      simp [Uses, LockHall.come, same, Occupation.key?] at after
    rw [LockHall.come, LockTable.find?_enter (coherent.stays_of_away away), if_neg ne]
  | letIn waits turn => rfl
  | go => exact coherent.find?_go before

/-- A task that holds a lock takes its turn and goes. -/
theorem table_turn (coherent : h.Coherent) (holds : h.table.Holds key task) :
    (h.play [.acquire task, .exit task .returned]).table = h.table.leave task := by
  have inside := coherent.inside_of_holds holds
  rw [← h.table_acquire task]
  simp only [LockHall.play, List.foldl_cons, List.foldl_nil]
  generalize h.step (.acquire task) = h' at inside ⊢
  simp only [LockHall.step, inside, LockHall.go]

/-- The task in front takes its turn and goes; the others move up. -/
theorem turn (coherent : h.Coherent) {entry : LockTable.Entry τ} {rest : List τ}
    (found : h.table.find? key = some entry) (members : entry.members = task :: rest)
    (more : rest ≠ []) :
    ∃ entry', (h.play [.acquire task, .exit task .returned]).table.find? key = some entry' ∧
      entry'.members = rest := by
  have sound := coherent.sound.entry key entry found
  have holds : h.table.Holds key task := ⟨entry, found, sound.holder_of_front members⟩
  obtain ⟨serial, stays⟩ := coherent.sound.stay_of_holds holds
  obtain ⟨_, found', same, -⟩ := (coherent.sound.stay task key serial).mp stays
  rw [found] at found'
  cases found'
  rw [coherent.table_turn holds, LockTable.find?_leave stays found same, if_pos rfl]
  exact sound.rest?_of_front members more

/-- A task that uses a lock gets inside by turns of tasks that use it too. -/
theorem admitted (coherent : h.Coherent) (uses : h.Uses task key) :
    ∃ moves : List (Move τ), (∀ move ∈ moves, h.Uses move.task key) ∧
      (h.play moves).doing task = .inside key := by
  obtain ⟨entry, found, member⟩ := coherent.uses_iff.mp uses
  obtain ⟨ahead, behind, members⟩ := List.append_of_mem member
  -- By induction on the tasks that are ahead.
  induction ahead generalizing h entry with
  | nil =>
    have held := (coherent.sound.entry key entry found).holder_of_front members
    refine ⟨[.acquire task], fun move only => ?_, coherent.inside_of_holds ⟨entry, found, held⟩⟩
    rw [List.mem_singleton.mp only]
    exact uses
  | cons first ahead ih =>
    obtain ⟨entry', found', moved⟩ := coherent.turn found members (by simp)
    have before {other : τ}
        (uses' : (h.play [.acquire first, .exit first .returned]).Uses other key) :
        h.Uses other key := by
      rw [← (coherent.play _).mem_members found', moved] at uses'
      rw [← coherent.mem_members found, members]
      exact List.mem_cons_of_mem first uses'
    have firstUses : h.Uses first key :=
      (coherent.mem_members found).mp (by rw [members]; exact List.mem_cons_self)
    obtain ⟨moves, theirs, inside⟩ := ih (coherent.play _)
      (((coherent.play _).mem_members found').mp (by rw [moved]; simp)) entry' found'
      (by rw [moved]; simp) moved
    refine ⟨[.acquire first, .exit first .returned] ++ moves, fun move given => ?_, ?_⟩
    · rcases List.mem_append.mp given with early | late
      · have : move.task = first := by
          rcases List.mem_pair.mp early with rfl | rfl <;> rfl
        rw [this]
        exact firstUses
      · exact before (theirs move late)
    · rw [LockHall.play, List.foldl_append]
      exact inside

end Coherent

/-! ## All halls -/

/-- Wherever any moves of any tasks lead to: at most one body runs under the lock of a
lower-case address; the tasks that use a lock share its entry, those of different locks do not,
and the entry stands while any of them uses it; the table has an entry for exactly the locks in
use, with the number of their tasks, and none when all have gone; a task waits for another one
of its own lock only, which the moves at other locks do not touch, and gets inside by turns of
the tasks at its own lock. What a call, an acquisition and an exit do to a task that is away,
waits or is inside is in `Coherent.step_call`, `Coherent.step_acquire` and
`Coherent.step_exit`. -/
theorem turns_taken (moves : List (Move τ)) :
    let h := ({} : LockHall τ).play moves
    (∀ key task other, h.doing task = .inside key → h.doing other = .inside key →
      task = other) ∧
    (∀ key task, h.Uses task key → ∃ entry, h.table.find? key = some entry ∧
      h.table.stays.lookup task = some ⟨key, entry.serial⟩) ∧
    (∀ task other key key' serial, h.table.stays.lookup task = some ⟨key, serial⟩ →
      h.table.stays.lookup other = some ⟨key', serial⟩ → key = key') ∧
    (∀ key task later, (∀ before, before <+: later → (h.play before).Uses task key) →
      ∃ entry entry', h.table.find? key = some entry ∧
        (h.play later).table.find? key = some entry' ∧ entry'.serial = entry.serial) ∧
    h.table.entries.keys.Nodup ∧
    (∀ key, (h.table.find? key).isSome ↔ ∃ task, h.Uses task key) ∧
    (∀ key entry, h.table.find? key = some entry →
      entry.users = {task | h.Uses task key}.ncard) ∧
    (h.table.isEmpty = true ↔ ∀ task, h.doing task = .away) ∧
    (∀ key task, h.doing task = .waiting key →
      (h.step (.acquire task)).doing task = .inside key ∨
        ∃ other, other ≠ task ∧ h.Uses other key ∧ h.table.Holds key other) ∧
    (∀ key move, ¬ h.Uses move.task key → ¬ (h.step move).Uses move.task key →
      (h.step move).table.find? key = h.table.find? key ∧
        ∀ task, h.Uses task key → (h.step move).doing task = h.doing task) ∧
    (∀ key task, h.Uses task key → ∃ turns : List (Move τ),
      (∀ move ∈ turns, h.Uses move.task key) ∧ (h.play turns).doing task = .inside key) := by
  intro h
  have coherent : h.Coherent := Coherent.empty.play moves
  refine ⟨fun key task other => coherent.exclusive, fun key task => coherent.shared,
    fun task other key key' serial => coherent.same_key,
    fun key task later => coherent.entry_kept, coherent.sound.keys, coherent.find?_isSome,
    fun key entry => coherent.counted, coherent.isEmpty_iff, fun key task => coherent.blocker,
    fun key move before after => ⟨coherent.find?_step before after, fun task uses => ?_⟩,
    fun key task => coherent.admitted⟩
  refine h.doing_step_of_ne ?_
  rintro rfl
  exact before uses

/-- The second of three tasks is cancelled while it waits for the first, whose body raises; the
third has its turn on the entry to which all three came. -/
example :
    let h := ({} : LockHall Nat).play [.call 1 "0xAB", .acquire 1, .call 2 "0xab",
      .call 3 "0xaB", .exit 2 .cancelled, .exit 1 .raised, .acquire 3]
    (h.doing 3, (h.table.find? "0xab").map fun entry => (entry.serial, entry.users)) =
        (.inside "0xab", some (0, 1)) ∧
      (h.step (.exit 3 .returned)).table.isEmpty = true := by
  decide

end LockHall

end Paymaster

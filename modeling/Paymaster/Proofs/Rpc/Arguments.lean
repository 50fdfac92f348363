import Paymaster.Proofs.Rpc.Calls
import Paymaster.Proofs.Rpc.Coercion

/-!
# Arguments by position

The values of a call are coerced position by position. What is raised is raised for the first
position that fails (`Dispatcher.stops_of_coerceFrom`), and then no operation runs.
`Dispatcher.Positional` is the promise: arguments are made exactly if every declared position
has a value of its shape, values behind the declared positions do not matter, and of several
defects the first one is reported, by its own wording. The promise is kept exactly if the first
position that fails is not an integer beyond the doubles (`Dispatcher.positional_iff`), as it is
in `Dispatcher.not_positional_long_integer`.
-/

namespace Paymaster.Dispatcher

variable {shapes : List Shape} {params : List Json}

/-! ## Positions -/

/-- A declared position with the argument that is made of its value. -/
def Filled (shapes : List Shape) (params : List Json) (i : Nat) (argument : Json) : Prop :=
  ∃ shape value, shapes[i]? = some shape ∧ params[i]? = some value ∧
    Shape.coerceAt i shape value = .ok argument

/-- A declared position without an argument, and the error that the caller is told. -/
inductive Defect (shapes : List Shape) (params : List Json) (i : Nat) : RpcError → Prop
  | missing : i < shapes.length → params.length ≤ i → Defect shapes params i
      (.because .invalidParams ("Param [" ++ Digits.decimal i ++ "] is missing"))
  | unsupported {shape : Shape} : shapes[i]? = some shape → i < params.length →
      shape.isSupported = false → Defect shapes params i Shape.unsupportedError
  | mismatch {shape : Shape} : shapes[i]? = some shape → i < params.length →
      shape.isSupported = true → (∀ argument, ¬ Filled shapes params i argument) →
      Defect shapes params i (Shape.mismatchError i shape)

/-- The promise of the arguments of a call. -/
structure Positional (shapes : List Shape) (params : List Json) : Prop where
  succeeds : (∃ arguments, coerceArguments shapes params = .ok arguments) ↔
    ∀ i < shapes.length, ∃ argument, Filled shapes params i argument
  each : ∀ arguments, coerceArguments shapes params = .ok arguments →
    arguments.length = shapes.length ∧
      ∀ i argument, arguments[i]? = some argument → Filled shapes params i argument
  further : ∀ others, others.take shapes.length = params.take shapes.length →
    coerceArguments shapes others = coerceArguments shapes params
  first : ∀ thrown, coerceArguments shapes params = .error thrown →
    ∃ i e, (∀ j < i, ∃ argument, Filled shapes params j argument) ∧
      Defect shapes params i e ∧ thrown = .coded e
  idle : ∀ (m : Type → Type) [Monad m] (registry : Registry m) (call : Call) (method : Method m),
    registry.find? call.method = some method → method.shapes = shapes → call.params = params →
      ∀ thrown, coerceArguments shapes params = .error thrown →
        invoke registry call = pure (.error thrown)

theorem filled_iff (i : Nat) (argument : Json) :
    Filled shapes params i argument ↔ ∃ shape value, shapes[i]? = some shape ∧
      params[i]? = some value ∧ shape.coerce value = .ok argument := by
  simp only [Filled, Shape.coerceAt_eq_ok_iff]

/-- The first position has the argument of the first value, and every other one that of a
position of the rest. -/
theorem filled_succ {shape : Shape} {value : Json} {i : Nat} {argument : Json} :
    Filled (shape :: shapes) (value :: params) (i + 1) argument ↔
      Filled shapes params i argument := by
  simp only [filled_iff, List.getElem?_cons_succ]

/-- A position at which the coercion of arguments stops, and what is raised there. The position
is counted from `index` on. -/
inductive Stops (index : Nat) (shapes : List Shape) (params : List Json) (i : Nat) : Thrown → Prop
  | missing : i < shapes.length → params.length ≤ i → Stops index shapes params i
      (.coded (.because .invalidParams
        ("Param [" ++ Digits.decimal (index + i) ++ "] is missing")))
  | fault {shape : Shape} {value : Json} {fault : Shape.Fault} : shapes[i]? = some shape →
      params[i]? = some value → shape.coerce value = .error fault →
      Stops index shapes params i (thrownOf (index + i) fault)

theorem Stops.succ {index i : Nat} {shape : Shape} {value : Json} {thrown : Thrown}
    (stops : Stops (index + 1) shapes params i thrown) :
    Stops index (shape :: shapes) (value :: params) (i + 1) thrown := by
  have place : index + 1 + i = index + (i + 1) := by omega
  cases stops with
  | missing declared ended =>
    rw [place]
    exact .missing (Nat.succ_lt_succ declared) (Nat.succ_le_succ ended)
  | fault declared given refused =>
    rw [place]
    exact .fault declared given refused

/-- The coercion stops within the declared positions. -/
theorem Stops.lt {index i : Nat} {thrown : Thrown} (stops : Stops index shapes params i thrown) :
    i < shapes.length := by
  cases stops with
  | missing declared _ => exact declared
  | fault declared _ _ =>
    obtain ⟨inside, -⟩ := List.getElem?_eq_some_iff.mp declared
    exact inside

/-- A position at which the coercion stops has no argument. -/
theorem Stops.not_filled {index i : Nat} {thrown : Thrown}
    (stops : Stops index shapes params i thrown) (argument : Json) :
    ¬ Filled shapes params i argument := by
  rw [filled_iff]
  rintro ⟨shape, value, declared, given, made⟩
  cases stops with
  | missing inside ended =>
    rw [List.getElem?_eq_none ended] at given
    cases given
  | fault declared' given' refused =>
    cases declared.symm.trans declared'
    cases given.symm.trans given'
    cases made.symm.trans refused

/-- What is raised is raised at the first position without an argument. -/
theorem stops_of_coerceFrom {index : Nat} {thrown : Thrown}
    (raised : coerceFrom index shapes params = .error thrown) :
    ∃ i, (∀ j < i, ∃ argument, Filled shapes params j argument) ∧
      Stops index shapes params i thrown := by
  induction shapes generalizing index params with
  | nil => cases raised
  | cons shape shapes ih =>
    cases params with
    | nil =>
      cases raised
      exact ⟨0, by simp, .missing (Nat.succ_pos _) (Nat.le_refl 0)⟩
    | cons value values =>
      unfold coerceFrom at raised
      cases first : shape.coerce value with
      | error fault =>
        simp only [first] at raised
        cases raised
        exact ⟨0, by simp, .fault rfl rfl first⟩
      | ok argument =>
        cases rest : coerceFrom (index + 1) shapes values with
        | ok arguments => simp only [first, rest, reduceCtorEq] at raised
        | error thrown' =>
          simp only [first, rest] at raised
          cases raised
          obtain ⟨i, filled, stops⟩ := ih rest
          refine ⟨i + 1, fun j before => ?_, stops.succ⟩
          cases j with
          | zero => exact ⟨argument, (filled_iff ..).mpr ⟨shape, value, rfl, rfl, first⟩⟩
          | succ j =>
            obtain ⟨argument, here⟩ := filled j (Nat.lt_of_succ_lt_succ before)
            exact ⟨argument, filled_succ.mpr here⟩

/-- There is at most one first position without an argument. -/
theorem first_unique {i i' : Nat}
    (before : ∀ j < i, ∃ argument, Filled shapes params j argument)
    (empty : ∀ argument, ¬ Filled shapes params i argument)
    (before' : ∀ j < i', ∃ argument, Filled shapes params j argument)
    (empty' : ∀ argument, ¬ Filled shapes params i' argument) : i = i' := by
  rcases Nat.lt_trichotomy i i' with earlier | same | later
  · obtain ⟨argument, filled⟩ := before' i earlier
    exact (empty argument filled).elim
  · exact same
  · obtain ⟨argument, filled⟩ := before i' later
    exact (empty' argument filled).elim

/-! ## All positions -/

/-- Made arguments stand in the positions of their values. -/
theorem Coerced.filled {arguments : List Json} (coerced : Coerced shapes params arguments) :
    arguments.length = shapes.length ∧
      ∀ i argument, arguments[i]? = some argument → Filled shapes params i argument := by
  have length : arguments.length = shapes.length := by
    have lengths := congrArg List.length coerced.each
    rw [List.length_zipWith, List.length_map, Nat.min_eq_left coerced.enough] at lengths
    exact lengths.symm
  refine ⟨length, fun i argument given => ?_⟩
  have here := congrArg (·[i]?) coerced.each
  simp only [List.getElem?_zipWith, List.getElem?_map, given, Option.map_some] at here
  rw [filled_iff]
  split at here
  · rename_i shape value declared sent
    exact ⟨shape, value, declared, sent, Option.some.inj here⟩
  · cases here

/-- Arguments depend on the values in the declared positions alone. -/
theorem coerceFrom_take (index : Nat) (shapes : List Shape) (params : List Json) :
    coerceFrom index shapes (params.take shapes.length) = coerceFrom index shapes params := by
  induction shapes generalizing index params with
  | nil => rfl
  | cons shape shapes ih =>
    cases params with
    | nil => rfl
    | cons value values =>
      simp only [List.length_cons, List.take_succ_cons, coerceFrom, ih]

/-- Where the coercion stops, and not at an integer beyond the doubles, the error is that of the
defect. -/
theorem Stops.defect {i : Nat} {thrown : Thrown} (stops : Stops 0 shapes params i thrown)
    (short : ∀ shape value, shapes[i]? = some shape → params[i]? = some value →
      ¬ shape.Overflows value) :
    ∃ e, Defect shapes params i e ∧ thrown = .coded e := by
  have empty := stops.not_filled
  cases stops with
  | missing declared ended =>
    rw [Nat.zero_add]
    exact ⟨_, .missing declared ended, rfl⟩
  | fault declared given refused =>
    obtain ⟨inside, -⟩ := List.getElem?_eq_some_iff.mp given
    rw [Nat.zero_add]
    rcases Shape.fault_of_coerce refused with
      ⟨unsupported, rfl⟩ | ⟨supported, -, rfl⟩ | ⟨long, -⟩
    · exact ⟨_, .unsupported declared inside unsupported, rfl⟩
    · exact ⟨_, .mismatch declared inside supported empty, rfl⟩
    · exact (short _ _ declared given long).elim

/-- The first position without an argument holds an integer beyond the doubles. -/
structure FirstOverflows (shapes : List Shape) (params : List Json) (i : Nat) : Prop where
  before : ∀ j < i, ∃ argument, Filled shapes params j argument
  here : ∃ shape value, shapes[i]? = some shape ∧ params[i]? = some value ∧ shape.Overflows value

/-- An integer beyond the doubles in the first position that fails is told without a code. -/
theorem FirstOverflows.raised {i : Nat} (overflows : FirstOverflows shapes params i) :
    coerceArguments shapes params = .error (.uncoded Shape.beyondDoubleMessage) := by
  obtain ⟨shape, value, declared, given, long⟩ := overflows.here
  have stops : Stops 0 shapes params i (thrownOf (0 + i) .beyondDouble) :=
    .fault declared given (Shape.coerce_of_overflows long)
  have empty := stops.not_filled
  cases outcome : coerceArguments shapes params with
  | ok arguments =>
    obtain ⟨length, each⟩ := ((coerceArguments_eq_ok_iff _ _ _).mp outcome).filled
    obtain ⟨inside, -⟩ := List.getElem?_eq_some_iff.mp declared
    have inside' : i < arguments.length := length ▸ inside
    exact (empty _ (each i _ (List.getElem?_eq_getElem inside'))).elim
  | error thrown =>
    obtain ⟨i', before, stops⟩ := stops_of_coerceFrom outcome
    cases first_unique overflows.before empty before stops.not_filled
    cases stops with
    | missing inside ended =>
      rw [List.getElem?_eq_none ended] at given
      cases given
    | fault declared' given' refused =>
      cases declared.symm.trans declared'
      cases given.symm.trans given'
      cases refused.symm.trans (Shape.coerce_of_overflows long)
      rfl

/-- What is raised under the promise has a code. -/
theorem Positional.not_overflows (promise : Positional shapes params) (i : Nat) :
    ¬ FirstOverflows shapes params i := by
  intro overflows
  obtain ⟨_, _, _, _, same⟩ := promise.first _ overflows.raised
  cases same

/-- The promise is kept exactly if the first position without an argument does not hold an
integer beyond the doubles. -/
theorem positional_iff (shapes : List Shape) (params : List Json) :
    Positional shapes params ↔ ∀ i, ¬ FirstOverflows shapes params i := by
  refine ⟨Positional.not_overflows, fun short => ⟨⟨?_, fun filled => ?_⟩, ?_, ?_, ?_, ?_⟩⟩
  · rintro ⟨arguments, made⟩ i inside
    obtain ⟨length, each⟩ := ((coerceArguments_eq_ok_iff _ _ _).mp made).filled
    have inside' : i < arguments.length := length ▸ inside
    exact ⟨_, each i _ (List.getElem?_eq_getElem inside')⟩
  · cases outcome : coerceArguments shapes params with
    | ok arguments => exact ⟨arguments, rfl⟩
    | error thrown =>
      obtain ⟨i, -, stops⟩ := stops_of_coerceFrom outcome
      obtain ⟨argument, here⟩ := filled i stops.lt
      exact (stops.not_filled argument here).elim
  · exact fun arguments made => ((coerceArguments_eq_ok_iff _ _ _).mp made).filled
  · intro others same
    rw [coerceArguments, ← coerceFrom_take, same, coerceFrom_take, coerceArguments]
  · intro thrown raised
    obtain ⟨i, before, stops⟩ := stops_of_coerceFrom raised
    obtain ⟨e, defect, same⟩ := stops.defect fun shape value declared given long =>
      short i ⟨before, shape, value, declared, given, long⟩
    exact ⟨i, e, before, defect, same⟩
  · rintro m _ registry call method found rfl rfl thrown raised
    simp only [invoke, found, raised]

theorem FirstOverflows.of_only {shape : Shape} {value : Json} (long : shape.Overflows value) :
    FirstOverflows [shape] [value] 0 :=
  ⟨by simp, shape, value, rfl, rfl, long⟩

/-- One followed by 309 zeros for a number: what is raised is no error of its position. -/
theorem not_positional_long_integer :
    ¬ Positional [.number "float64"] [.int (10 ^ 309)] :=
  fun promise => promise.not_overflows 0 (.of_only Shape.overflows_long_integer)

end Paymaster.Dispatcher

import Paymaster.Proofs.Number.Exact
import Paymaster.Proofs.Number.Range
import Paymaster.Rpc.Shape

/-!
# What a shape accepts

The values that a shape takes (`Shape.Takes`) and what it makes of them (`Shape.Makes`) are said
without the order in which a value is tested: an integer shape takes the integers of its range,
also those that are written as doubles, a number shape takes the numbers, and every other shape
the values of its own kind. `Shape.Classified` is the promise of a coercion: such a value is
coerced, any other is refused under its place and shape, and a declaration that names no shape
is an internal error. The promise is kept exactly for the integers that a number shape can turn
into doubles, and for the places that can be named in a refusal (`Shape.classified_iff`). One
followed by 309 zeros is a number that a number shape neither takes nor refuses
(`Shape.not_classified_long_integer`).
-/

namespace Paymaster

/-- A value that is an integer, written as one or as a double. Truth values are no numbers. -/
inductive Json.IsInteger : Json → Int → Prop
  | int (n : Int) : IsInteger (.int n) n
  | double {d : Double} {n : Int} : d.value? = some (n : ℚ) → IsInteger (.double d) n

namespace Shape

/-! ## What is taken -/

/-- The integers of a number of bits, with or without sign. -/
def InRange (bits : Nat) (signed : Bool) (n : Int) : Prop :=
  if signed then -2 ^ (bits - 1) ≤ n ∧ n < 2 ^ (bits - 1) else 0 ≤ n ∧ n < 2 ^ bits

/-- The values of a shape. -/
def Takes (shape : Shape) (value : Json) : Prop :=
  match shape with
  | .integer _ bits signed => ∃ n, value.IsInteger n ∧ InRange bits signed n
  | .number _ => (∃ n, value = .int n) ∨ ∃ d, value = .double d
  | .text => ∃ t, value = .text t
  | .any => True
  | .list => ∃ items, value = .array items
  | .map => ∃ members, value = .object members
  | .unsupported _ => False

/-- A value of a shape and the argument that is made of it. -/
inductive Makes : Shape → Json → Json → Prop
  | integer {name : String} {bits : Nat} {signed : Bool} {value : Json} {n : Int} :
      value.IsInteger n → InRange bits signed n → Makes (.integer name bits signed) value (.int n)
  | double (name : String) (d : Double) : Makes (.number name) (.double d) (.double d)
  | rounded (name : String) {n : Int} {d : Double} : Double.ofInt? n = some d →
      Makes (.number name) (.int n) (.double d)
  | text (t : Text) : Makes .text (.text t) (.text t)
  | any (value : Json) : Makes .any value value
  | list (items : List Json) : Makes .list (.array items) (.array items)
  | map (members : List (Text × Json)) : Makes .map (.object members) (.object members)

/-- The promise of the coercion of a value in a place: it has one of three outcomes, which the
shape and the value decide, and the coded errors name the place and the shape. -/
structure Classified (index : Int) (shape : Shape) (value : Json) : Prop where
  internal : coerceAt index shape value = .error (.coded unsupportedError) ↔
    shape.isSupported = false
  taken : (∃ argument, coerceAt index shape value = .ok argument) ↔ shape.Takes value
  made : ∀ argument, coerceAt index shape value = .ok argument → Makes shape value argument
  refused : shape.isSupported = true → ¬ shape.Takes value →
    coerceAt index shape value = .error (.coded (mismatchError index shape))
  alike : ∀ name bits signed n, shape = .integer name bits signed → value.IsInteger n →
    coerceAt index shape value = coerceAt index shape (.int n)

/-! ## Integers -/

theorem integral?_eq_some_iff (value : Json) (n : Int) :
    integral? value = some n ↔ value.IsInteger n := by
  constructor
  · intro whole
    cases value with
    | int m =>
      cases whole
      exact .int n
    | double d => exact .double ((d.toInt?_eq_some_iff n).mp whole)
    | _ => cases whole
  · intro integer
    cases integer with
    | int => rfl
    | double same => exact (Double.toInt?_eq_some_iff _ n).mpr same

theorem inRange_iff (bits : Nat) (signed : Bool) (n : Int) :
    InRange bits signed n ↔ low bits signed ≤ n ∧ n ≤ high bits signed := by
  cases signed with
  | true =>
    simp only [InRange, low, high, if_true, Nat.pow_eq, Nat.cast_pow, Nat.cast_ofNat]
    omega
  | false =>
    simp only [InRange, low, high, Bool.false_eq_true, if_false, Nat.pow_eq, Nat.cast_pow,
      Nat.cast_ofNat]
    omega

/-! ## Coercion -/

/-- A value that is coerced is taken, and the argument is what the shape makes of it. -/
theorem coerce_eq_ok_iff (shape : Shape) (value argument : Json) :
    shape.coerce value = .ok argument ↔ Makes shape value argument := by
  constructor
  · intro coerced
    cases shape with
    | integer name bits signed =>
      cases whole : integral? value with
      | none => simp [coerce, whole] at coerced
      | some n =>
        by_cases fits : low bits signed ≤ n ∧ n ≤ high bits signed
        · simp only [coerce, whole, if_pos fits] at coerced
          cases coerced
          exact .integer ((integral?_eq_some_iff value n).mp whole) ((inRange_iff ..).mpr fits)
        · simp [coerce, whole, if_neg fits] at coerced
    | number name =>
      cases value with
      | double d =>
        cases coerced
        exact .double name d
      | int n =>
        cases nearest : Double.ofInt? n with
        | none => simp [coerce, nearest] at coerced
        | some d =>
          simp only [coerce, nearest] at coerced
          cases coerced
          exact .rounded name nearest
      | _ => cases coerced
    | text =>
      cases value with
      | text t =>
        cases coerced
        exact .text t
      | _ => cases coerced
    | any =>
      cases coerced
      exact .any value
    | list =>
      cases value with
      | array items =>
        cases coerced
        exact .list items
      | _ => cases coerced
    | map =>
      cases value with
      | object members =>
        cases coerced
        exact .map members
      | _ => cases coerced
    | unsupported declared => cases coerced
  · intro made
    cases made with
    | integer whole fits =>
      have found := (integral?_eq_some_iff value _).mpr whole
      simp only [coerce, found, if_pos ((inRange_iff ..).mp fits)]
    | rounded name nearest => simp only [coerce, nearest]
    | _ => rfl

/-- A value that is coerced is one of the shape. -/
theorem Makes.takes {shape : Shape} {value argument : Json} (made : Makes shape value argument) :
    shape.Takes value := by
  cases made with
  | integer whole fits => exact ⟨_, whole, fits⟩
  | double name d => exact .inr ⟨d, rfl⟩
  | rounded name nearest => exact .inl ⟨_, rfl⟩
  | text t => exact ⟨t, rfl⟩
  | any value => trivial
  | list items => exact ⟨items, rfl⟩
  | map members => exact ⟨members, rfl⟩

/-- A value that a shape with a coercion does not take is refused. -/
theorem coerce_of_not_takes {shape : Shape} {value : Json} (supported : shape.isSupported = true)
    (other : ¬ shape.Takes value) : shape.coerce value = .error (.mismatch shape) := by
  cases shape with
  | integer name bits signed =>
    cases whole : integral? value with
    | none => simp only [coerce, whole]
    | some n =>
      have outside : ¬ (low bits signed ≤ n ∧ n ≤ high bits signed) := fun fits =>
        other ⟨n, (integral?_eq_some_iff value n).mp whole, (inRange_iff ..).mpr fits⟩
      simp only [coerce, whole, if_neg outside]
  | number name =>
    cases value with
    | int n => exact absurd (.inl ⟨n, rfl⟩) other
    | double d => exact absurd (.inr ⟨d, rfl⟩) other
    | _ => rfl
  | text =>
    cases value with
    | text t => exact absurd ⟨t, rfl⟩ other
    | _ => rfl
  | any => exact absurd trivial other
  | list =>
    cases value with
    | array items => exact absurd ⟨items, rfl⟩ other
    | _ => rfl
  | map =>
    cases value with
    | object members => exact absurd ⟨members, rfl⟩ other
    | _ => rfl
  | unsupported declared => cases supported

/-- An integer that a number shape cannot turn into a double. -/
def Overflows (shape : Shape) (value : Json) : Prop :=
  ∃ name n, shape = .number name ∧ value = .int n ∧ Double.beyond ≤ n.natAbs

theorem coerce_of_overflows {shape : Shape} {value : Json} (long : shape.Overflows value) :
    shape.coerce value = .error .beyondDouble := by
  obtain ⟨name, n, rfl, rfl, beyond⟩ := long
  have none : Double.ofInt? n = none := by
    rw [← Option.not_isSome_iff_eq_none, Double.isSome_ofInt?_iff]
    omega
  simp only [coerce, none]

/-- Every other value of a shape is coerced. -/
theorem coerce_of_takes {shape : Shape} {value : Json} (takes : shape.Takes value)
    (short : ¬ shape.Overflows value) : ∃ argument, shape.coerce value = .ok argument := by
  cases shape with
  | integer name bits signed =>
    obtain ⟨n, whole, fits⟩ := takes
    exact ⟨_, (coerce_eq_ok_iff ..).mpr (.integer whole fits)⟩
  | number name =>
    rcases takes with ⟨n, rfl⟩ | ⟨d, rfl⟩
    · have within : n.natAbs < Double.beyond := Nat.lt_of_not_le fun beyond =>
        short ⟨name, n, rfl, rfl, beyond⟩
      obtain ⟨d, nearest⟩ := Option.isSome_iff_exists.mp ((Double.isSome_ofInt?_iff n).mpr within)
      exact ⟨_, (coerce_eq_ok_iff ..).mpr (.rounded name nearest)⟩
    · exact ⟨_, rfl⟩
  | text =>
    obtain ⟨t, rfl⟩ := takes
    exact ⟨_, rfl⟩
  | any => exact ⟨_, rfl⟩
  | list =>
    obtain ⟨items, rfl⟩ := takes
    exact ⟨_, rfl⟩
  | map =>
    obtain ⟨members, rfl⟩ := takes
    exact ⟨_, rfl⟩
  | unsupported declared => cases takes

theorem coerce_of_unsupported {shape : Shape} (unsupported : shape.isSupported = false)
    (value : Json) : shape.coerce value = .error .unsupported := by
  cases shape with
  | unsupported declared => rfl
  | _ => cases unsupported

/-- Only of an integer that is too long a number shape is without an argument. -/
theorem Overflows.supported {shape : Shape} {value : Json} (long : shape.Overflows value) :
    shape.isSupported = true ∧ shape.Takes value := by
  obtain ⟨name, n, rfl, rfl, -⟩ := long
  exact ⟨rfl, .inl ⟨n, rfl⟩⟩

/-- Why a value is not coerced: the declaration names no shape, the value is none of the shape,
or it is an integer beyond the doubles. -/
theorem fault_of_coerce {shape : Shape} {value : Json} {fault : Fault}
    (raised : shape.coerce value = .error fault) :
    (shape.isSupported = false ∧ fault = .unsupported) ∨
      (shape.isSupported = true ∧ ¬ shape.Takes value ∧ fault = .mismatch shape) ∨
      (shape.Overflows value ∧ fault = .beyondDouble) := by
  cases supported : shape.isSupported with
  | false =>
    rw [coerce_of_unsupported supported] at raised
    exact .inl ⟨rfl, (Except.error.inj raised).symm⟩
  | true =>
    by_cases takes : shape.Takes value
    · by_cases long : shape.Overflows value
      · rw [coerce_of_overflows long] at raised
        exact .inr (.inr ⟨long, (Except.error.inj raised).symm⟩)
      · obtain ⟨argument, coerced⟩ := coerce_of_takes takes long
        cases coerced.symm.trans raised
    · rw [coerce_of_not_takes supported takes] at raised
      exact .inr (.inl ⟨rfl, takes, (Except.error.inj raised).symm⟩)

/-! ## In a place -/

theorem coerceAt_of_error {shape : Shape} {value : Json} {fault : Fault}
    (refused : shape.coerce value = .error fault) (index : Int) :
    coerceAt index shape value = .error (fault.refusal index) := by
  rw [coerceAt, refused]
  rfl

theorem coerceAt_eq_ok_iff (index : Int) (shape : Shape) (value argument : Json) :
    coerceAt index shape value = .ok argument ↔ shape.coerce value = .ok argument := by
  unfold coerceAt
  cases shape.coerce value <;> simp [Except.mapError]

/-- A refusal names its place exactly if the number of the place can be written. -/
theorem refusal_mismatch_iff (index : Int) (shape : Shape) :
    (Fault.mismatch shape).refusal index = .coded (mismatchError index shape) ↔
      (Integer.write? index).isSome = true := by
  unfold Fault.refusal
  -- the text of the number stays closed: its limit is a power that is not to be computed
  generalize (Integer.write? index).isSome = written
  cases written <;> simp

/-- An integer shape sees the integer alone, however it is written. -/
theorem coerceAt_of_isInteger {name : String} {bits : Nat} {signed : Bool} {value : Json} {n : Int}
    (whole : value.IsInteger n) (index : Int) :
    coerceAt index (.integer name bits signed) value
      = coerceAt index (.integer name bits signed) (.int n) := by
  have found := (integral?_eq_some_iff value n).mpr whole
  have same : integral? (.int n) = some n := rfl
  simp only [coerceAt, coerce, found, same]

/-- The promise needs an argument for every number and a name for every place. -/
theorem Classified.kept {index : Int} {shape : Shape} {value : Json}
    (promise : Classified index shape value) :
    ¬ shape.Overflows value ∧
      (shape.isSupported = true → ¬ shape.Takes value → (Integer.write? index).isSome) := by
  constructor
  · intro long
    obtain ⟨argument, coerced⟩ := promise.taken.mpr long.supported.2
    rw [coerceAt_eq_ok_iff, coerce_of_overflows long] at coerced
    cases coerced
  · intro supported other
    have refused := promise.refused supported other
    rw [coerceAt_of_error (coerce_of_not_takes supported other)] at refused
    exact (refusal_mismatch_iff index shape).mp (Except.error.inj refused)

/-- The promise is kept exactly for the values that are not integers beyond the doubles in a
number shape, and for a value that is refused in a place whose number can be written. -/
theorem classified_iff (index : Int) (shape : Shape) (value : Json) :
    Classified index shape value ↔ ¬ shape.Overflows value ∧
      (shape.isSupported = true → ¬ shape.Takes value → (Integer.write? index).isSome) := by
  refine ⟨Classified.kept, fun kept => ?_⟩
  obtain ⟨short, written⟩ := kept
  have refused (supported : shape.isSupported = true) (other : ¬ shape.Takes value) :
      coerceAt index shape value = .error (.coded (mismatchError index shape)) := by
    rw [coerceAt_of_error (coerce_of_not_takes supported other),
      (refusal_mismatch_iff index shape).mpr (written supported other)]
  have coerced (takes : shape.Takes value) :
      ∃ argument, coerceAt index shape value = .ok argument := by
    obtain ⟨argument, coerced⟩ := coerce_of_takes takes short
    exact ⟨argument, (coerceAt_eq_ok_iff ..).mpr coerced⟩
  refine ⟨⟨fun internal => ?_, fun unsupported => ?_⟩, ⟨?_, coerced⟩, ?_, refused, ?_⟩
  · by_contra supported
    rw [Bool.not_eq_false] at supported
    by_cases takes : shape.Takes value
    · obtain ⟨argument, same⟩ := coerced takes
      cases internal.symm.trans same
    · cases internal.symm.trans (refused supported takes)
  · exact coerceAt_of_error (coerce_of_unsupported unsupported value) index
  · rintro ⟨argument, coerced⟩
    exact ((coerce_eq_ok_iff ..).mp ((coerceAt_eq_ok_iff ..).mp coerced)).takes
  · intro argument coerced
    exact (coerce_eq_ok_iff ..).mp ((coerceAt_eq_ok_iff ..).mp coerced)
  · rintro name bits signed n rfl whole
    exact coerceAt_of_isInteger whole index

/-- One followed by 309 zeros is beyond the doubles. -/
theorem overflows_long_integer : Overflows (.number "float64") (.int (10 ^ 309)) := by
  have beyond : Double.beyond ≤ (10 ^ 309 : Int).natAbs := by
    rw [Int.natAbs_pow]
    decide +kernel
  exact ⟨"float64", _, rfl, rfl, beyond⟩

/-- One followed by 309 zeros is a number, but in a number shape it is neither coerced nor
refused. -/
theorem not_classified_long_integer :
    ¬ Classified 0 (.number "float64") (.int (10 ^ 309)) :=
  fun promise => promise.kept.1 overflows_long_integer

end Shape

end Paymaster

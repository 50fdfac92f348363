import Paymaster.Proofs.UserOperation.Quantities

/-!
# Defects of an operation

What fits a member is decided by its value alone (`UserOperation.Member.Fits`). An object is read
as an operation exactly if no member is missing that has no default, and every value that is sent
for a member fits. Otherwise the parameters are invalid, and the data of the error lists the
members that are missing or do not fit, each once, in the order of the contract and under the
name that was used (`UserOperation.defects_reported`).
-/

namespace Paymaster

/-! ## Values -/

/-- The integer that a value stands for: a number with an integral value, or a text. -/
inductive Quantity.Stands : Json → Int → Prop
  | integer (n : Int) : Stands (.int n) n
  | double {d : Double} {n : Int} : d.toInt? = some n → Stands (.double d) n
  | text {t : Text} {n : Nat} : Tolerated t.strip n → Stands (.text t) n

theorem Quantity.stands_iff {value : Json} {n : Int} :
    Stands value n ↔ integerOf value = .ok n := by
  constructor
  · intro stands
    cases stands with
    | integer => rfl
    | double whole => rw [integerOf, whole]
    | text tolerated => exact ofText_eq_ok_iff.mpr ⟨_, rfl, tolerated⟩
  · intro given
    cases value with
    | int =>
      cases given
      exact .integer n
    | double d =>
      rw [integerOf] at given
      split at given
      · rename_i whole
        cases given
        exact .double whole
      · cases given
    | text t =>
      obtain ⟨k, rfl, tolerated⟩ := ofText_eq_ok_iff.mp given
      exact .text tolerated
    | _ => cases given

namespace Hex

/-- Texts of digits in pairs. -/
theorem exists_pairs?_iff {t : Text} :
    (∃ b, pairs? t = some b) ↔ t.length % 2 = 0 ∧ ∀ c ∈ t, c.isHexDigit = true := by
  induction t using pairs?.induct with
  | case1 => simp [pairs?]
  | case2 c => simp [pairs?]
  | case3 c d rest ih =>
    have length : (c :: d :: rest).length % 2 = rest.length % 2 := by
      simp only [List.length_cons]
      omega
    rw [length, List.forall_mem_cons, List.forall_mem_cons, and_left_comm (a := _ % 2 = 0),
      and_left_comm (a := _ % 2 = 0), ← ih, CodePoint.isHexDigit, CodePoint.isHexDigit]
    simp only [Option.isSome_iff_exists, pairs?, Option.bind_eq_bind, Option.bind_eq_some_iff,
      Option.pure_def, Option.some.injEq]
    constructor
    · rintro ⟨_, high, highRead, low, lowRead, b, read, -⟩
      exact ⟨⟨high, highRead⟩, ⟨low, lowRead⟩, b, read⟩
    · rintro ⟨⟨high, highRead⟩, ⟨low, lowRead⟩, b, read⟩
      exact ⟨_, high, highRead, low, lowRead, b, read, rfl⟩

/-- Any number of digits is read, and nothing else. -/
theorem exists_read_iff {t : Text} : (∃ b, read t = .ok b) ↔ ∀ c ∈ t, c.isHexDigit = true := by
  have zero : CodePoint.isHexDigit '0' = true := by decide
  have digits : (∀ c ∈ evened t, c.isHexDigit = true) ↔ ∀ c ∈ t, c.isHexDigit = true := by
    unfold evened
    split
    · rw [List.forall_mem_cons]
      exact and_iff_right zero
    · rfl
  have even : (evened t).length % 2 = 0 := by
    unfold evened
    split
    · rw [List.length_cons]
      omega
    · omega
  have pairs : (∃ b, pairs? (evened t) = some b) ↔ ∀ c ∈ t, c.isHexDigit = true := by
    rw [exists_pairs?_iff, digits]
    exact and_iff_right even
  rw [← pairs]
  dsimp only [read]
  constructor
  · rintro ⟨b, made⟩
    split at made
    · cases made
    · split at made
      · rename_i b' read
        exact ⟨b', read⟩
      · cases made
  · rintro ⟨b, made⟩
    have ascii := List.all_eq_true.mp (isAscii_of_pairs? made)
    rw [Unencodable.find?_eq_none_iff.mpr ascii, made]
    exact ⟨b, rfl⟩

end Hex

/-- The texts of byte strings: hexadecimal digits behind the mark, or nothing, with blanks around
them. -/
def ByteString.IsText (t : Text) : Prop :=
  t.strip = [] ∨ ∃ (x : CodePoint) (digits : Text), (x = 'x' ∨ x = 'X') ∧
    t.strip = ('0' :: x :: digits : Text) ∧ ∀ c ∈ digits, c.isHexDigit = true

theorem ByteString.exists_read_iff {t : Text} : (∃ b, read (.text t) = .ok b) ↔ IsText t := by
  dsimp only [read, IsText]
  generalize t.strip = s
  rcases empty : s with _ | ⟨c, rest⟩
  · simp
  rw [← empty]
  have filled : s.isEmpty = false := by rw [empty, List.isEmpty_cons]
  simp only [filled, Bool.false_eq_true, if_false]
  rcases marked : Digits.afterMark? s with _ | digits
  · simp only [reduceCtorEq, exists_false, false_iff, not_or]
    refine ⟨by rw [empty]; exact List.cons_ne_nil c rest, ?_⟩
    rintro ⟨x, digits, mark, rfl, -⟩
    rw [Digits.afterMark?_marked mark] at marked
    cases marked
  · obtain ⟨x, mark, rfl⟩ := Digits.afterMark?_eq_some_iff.mp marked
    simp only [UserOperation.mapError_eq_ok_iff, Hex.exists_read_iff, List.cons_ne_nil, false_or]
    constructor
    · exact fun all => ⟨x, digits, mark, rfl, all⟩
    · rintro ⟨x', digits', -, same, all⟩
      cases same
      exact all

namespace UserOperation

/-! ## Names -/

section Names

variable {names : Names} {members : Entries Text Json} {location : Text} {value : Json}

/-- A value is sent under one of the names, under the second one only if the first is absent. -/
def Names.Sends (names : Names) (members : Entries Text Json) (location : Text)
    (value : Json) : Prop :=
  location = names.first ∧ members.value? names.first = some value ∨
    location = names.second ∧ members.value? names.first = none ∧
      members.value? names.second = some value

/-- Nothing is sent under either name. -/
def Names.Missing (names : Names) (members : Entries Text Json) : Prop :=
  members.value? names.first = none ∧ members.value? names.second = none

theorem Names.find?_eq_some_iff :
    names.find? members = some (location, value) ↔ names.Sends members location value := by
  unfold find? Sends
  rcases members.value? names.first with _ | v
  · simp [eq_comm, and_comm]
  · simp [eq_comm]

theorem Names.find?_eq_none_iff : names.find? members = none ↔ names.Missing members := by
  unfold find? Missing
  rcases members.value? names.first with _ | v <;> simp

theorem Names.Sends.has (sends : names.Sends members location value) : names.Has location :=
  sends.imp And.left And.left

end Names

variable {rule : Address.CaseRule} {members : Entries Text Json} {value : Json}

/-! ## Members -/

/-- The members of an operation. -/
inductive Member where
  | sender
  | quantity (q : QuantityMember)
  | bytes (b : BytesMember)
  deriving DecidableEq, Repr

namespace Member

/-- The members in the order of the contract. -/
def all : List Member :=
  [.sender, .quantity .nonce, .bytes .initCode, .bytes .callData, .quantity .callGas,
   .quantity .verificationGas, .quantity .preVerificationGas, .quantity .maxFee,
   .quantity .maxPriorityFee, .bytes .paymasterAndData, .bytes .signature]

abbrev names : Member → Names
  | .sender => senderNames
  | .quantity q => q.names
  | .bytes b => b.names

/-- The members without a default. -/
def isRequired : Member → Bool
  | .sender | .quantity .nonce | .bytes .callData => true
  | .quantity .maxFee | .quantity .maxPriorityFee => true
  | _ => false

/-- The values that fit a member: a spelling of an address in an allowed letter case, a quantity
below the bound of a word, or a byte string. -/
def Fits (rule : Address.CaseRule) : Member → Json → Prop
  | .sender, value =>
    ∃ (a : Address) (t : Text), value = .text t ∧ a.Spells t ∧ rule.allows a t = true
  | .quantity _, value => ∃ n : Nat, Quantity.Stands value n ∧ n < Quantity.bound
  | .bytes _, value => ∃ t, value = .text t ∧ ByteString.IsText t

/-- A member that is missing without having a default, or does not fit. -/
def Faulty (rule : Address.CaseRule) (m : Member) (members : Entries Text Json) : Prop :=
  m.isRequired = true ∧ m.names.Missing members ∨
    ∃ location value, m.names.Sends members location value ∧ ¬ m.Fits rule value

/-- The defect of a faulty member: the name is the one that was used, or the first one of a
missing member. -/
inductive Blamed (rule : Address.CaseRule) (m : Member) (members : Entries Text Json) :
    Defect → Prop
  | missing : m.isRequired = true → m.names.Missing members →
    Blamed rule m members ⟨m.names.first, "Field required"⟩
  | unfit {location : Text} {value : Json} (reason : Text) :
    m.names.Sends members location value → ¬ m.Fits rule value →
    Blamed rule m members ⟨location, "Value error, " ++ reason⟩

variable {m m' : Member} {d : Defect}

theorem Blamed.faulty (blamed : m.Blamed rule members d) : m.Faulty rule members := by
  cases blamed with
  | missing required missing => exact .inl ⟨required, missing⟩
  | unfit _ sends unfit => exact .inr ⟨_, _, sends, unfit⟩

theorem Blamed.has (blamed : m.Blamed rule members d) : m.names.Has d.location := by
  cases blamed with
  | missing _ _ => exact .inl rfl
  | unfit _ sends _ => exact sends.has

theorem mem_all (m : Member) : m ∈ all := by
  cases m with
  | sender => decide
  | quantity q => cases q <;> decide
  | bytes b => cases b <;> decide

theorem nodup_all : all.Nodup := by decide

/-- Different members have different names. -/
theorem names_apart (ne : m ≠ m') : m.names.Apart m'.names := by
  have table : ∀ m ∈ all, ∀ m' ∈ all, m ≠ m' → m.names.Apart m'.names := by decide +kernel
  exact table m m.mem_all m' m'.mem_all ne

theorem fits_sender_iff :
    Fits rule .sender value ↔ ∃ sender, readSender rule value = .ok sender := by
  constructor
  · rintro ⟨a, t, rfl, spells, allowed⟩
    have recognized := Address.recognize?_iff.mpr ⟨spells, allowed⟩
    exact ⟨_, readSender_eq_ok_iff.mpr ⟨⟨t, rfl, recognized⟩, rfl⟩⟩
  · rintro ⟨⟨a, kept⟩, given⟩
    obtain ⟨⟨t, rfl, recognized⟩, -⟩ := readSender_eq_ok_iff.mp given
    obtain ⟨spells, allowed⟩ := Address.recognize?_iff.mp recognized
    exact ⟨a, t, rfl, spells, allowed⟩

theorem fits_quantity_iff {q : QuantityMember} :
    Fits rule (.quantity q) value ↔ ∃ n, readQuantity value = .ok n := by
  simp only [Fits, Quantity.readQuantity_eq_ok_iff, Quantity.stands_iff]

theorem fits_bytes_iff {b : BytesMember} :
    Fits rule (.bytes b) value ↔ ∃ x, readBytes value = .ok x := by
  simp only [Fits, readBytes, mapError_eq_ok_iff, ← ByteString.exists_read_iff]
  constructor
  · rintro ⟨t, rfl, x, made⟩
    exact ⟨x, made⟩
  · rintro ⟨x, made⟩
    cases value with
    | text t => exact ⟨t, rfl, x, made⟩
    | _ => cases made

/-! ## Defects -/

/-- A member has one defect if it is faulty, and otherwise none. -/
theorem defectOf_cases {α : Type} {default? : Option α} {read : Json → Except Text α}
    (required : m.isRequired = default?.isNone)
    (fits : ∀ value, m.Fits rule value ↔ ∃ a, read value = .ok a) :
    (¬ m.Faulty rule members ∧ defectOf (member members m.names default? read) = []) ∨
      ∃ d, defectOf (member members m.names default? read) = [d] ∧ m.Blamed rule members d := by
  unfold member Faulty
  rcases found : m.names.find? members with _ | ⟨location, value⟩
  · have missing := Names.find?_eq_none_iff.mp found
    have none : ¬ ∃ location value, m.names.Sends members location value ∧ ¬ m.Fits rule value := by
      rintro ⟨location, value, sends, -⟩
      rw [Names.find?_eq_some_iff.mpr sends] at found
      cases found
    cases default? with
    | none => exact .inr ⟨_, rfl, .missing required missing⟩
    | some a =>
      refine .inl ⟨not_or.mpr ⟨fun given => ?_, none⟩, rfl⟩
      rw [required] at given
      cases given.1
  · have sends := Names.find?_eq_some_iff.mp found
    cases made : read value with
    | ok a =>
      refine .inl ⟨not_or.mpr ⟨fun given => ?_, ?_⟩, ?_⟩
      · rw [Names.find?_eq_none_iff.mpr given.2] at found
        cases found
      · rintro ⟨location', value', sends', unfit⟩
        rw [Names.find?_eq_some_iff.mpr sends'] at found
        cases found
        exact unfit ((fits _).mpr ⟨a, made⟩)
      · simp only [made]
        rfl
    | error reason =>
      refine .inr ⟨⟨location, "Value error, " ++ reason⟩, ?_, .unfit reason sends ?_⟩
      · simp only [made]
        rfl
      · intro given
        obtain ⟨a, given⟩ := (fits value).mp given
        rw [made] at given
        cases given

/-- The defects of a member. -/
def defects (rule : Address.CaseRule) (members : Entries Text Json) : Member → List Defect
  | .sender => defectOf (member members senderNames none (readSender rule))
  | .quantity q => defectOf (member members q.names q.default? readQuantity)
  | .bytes b => defectOf (member members b.names b.default? readBytes)

theorem defects_cases (m : Member) :
    (¬ m.Faulty rule members ∧ m.defects rule members = []) ∨
      ∃ d, m.defects rule members = [d] ∧ m.Blamed rule members d := by
  cases m with
  | sender => exact defectOf_cases (m := .sender) rfl fun _ => fits_sender_iff
  | quantity q =>
    exact defectOf_cases (m := .quantity q) (by cases q <;> rfl) fun _ => fits_quantity_iff
  | bytes b =>
    exact defectOf_cases (m := .bytes b) (by cases b <;> rfl) fun _ => fits_bytes_iff

theorem faulty_iff : m.Faulty rule members ↔ m.defects rule members ≠ [] := by
  rcases @defects_cases rule members m with ⟨sound, none⟩ | ⟨d, one, blamed⟩
  · simp [sound, none]
  · simp [one, blamed.faulty]

end Member

theorem defectOf_eq_nil_iff {α : Type} {x : Except Defect α} :
    defectOf x = [] ↔ ∃ a, x = .ok a := by
  cases x <;> simp [defectOf]

/-- Items with at most one finding each: those with one are a sublist of the items, and the
findings are theirs in the same order. -/
theorem exists_sublist_forall₂ {ι δ : Type} {bad : ι → Prop} {blames : ι → δ → Prop}
    {find : ι → List δ}
    (each : ∀ a, (¬ bad a ∧ find a = []) ∨ ∃ d, find a = [d] ∧ blames a d)
    (blamed : ∀ {a d}, blames a d → bad a) (items : List ι) :
    ∃ faulty : List ι, faulty.Sublist items ∧ (∀ a, a ∈ faulty ↔ a ∈ items ∧ bad a) ∧
      List.Forall₂ blames faulty (items.flatMap find) := by
  induction items with
  | nil => exact ⟨[], .refl _, by simp, .nil⟩
  | cons a rest ih =>
    obtain ⟨faulty, sublist, mem_iff, paired⟩ := ih
    rw [List.flatMap_cons]
    rcases each a with ⟨sound, none⟩ | ⟨d, one, blames⟩
    · refine ⟨faulty, sublist.cons a, fun b => ?_, ?_⟩
      · rw [mem_iff, List.mem_cons]
        constructor
        · exact fun given => ⟨.inr given.1, given.2⟩
        · rintro ⟨rfl | member, isBad⟩
          · exact absurd isBad sound
          · exact ⟨member, isBad⟩
      · rw [none]
        exact paired
    · refine ⟨a :: faulty, sublist.cons_cons a, fun b => ?_, ?_⟩
      · rw [List.mem_cons, List.mem_cons, mem_iff]
        constructor
        · rintro (rfl | given)
          · exact ⟨.inl rfl, blamed blames⟩
          · exact ⟨.inr given.1, given.2⟩
        · rintro ⟨rfl | member, isBad⟩
          · exact .inl rfl
          · exact .inr ⟨member, isBad⟩
      · rw [one]
        exact .cons blames paired

/-- The defects of an object are those of its members. -/
theorem defects_of_ofMembers {ds : List Defect} (failed : ofMembers members rule = .error ds) :
    ds = Member.all.flatMap (Member.defects rule members) := by
  have joined : Member.all.flatMap (Member.defects rule members)
      = Member.defects rule members .sender ++ Member.defects rule members (.quantity .nonce)
        ++ Member.defects rule members (.bytes .initCode)
        ++ Member.defects rule members (.bytes .callData)
        ++ Member.defects rule members (.quantity .callGas)
        ++ Member.defects rule members (.quantity .verificationGas)
        ++ Member.defects rule members (.quantity .preVerificationGas)
        ++ Member.defects rule members (.quantity .maxFee)
        ++ Member.defects rule members (.quantity .maxPriorityFee)
        ++ Member.defects rule members (.bytes .paymasterAndData)
        ++ Member.defects rule members (.bytes .signature) := by
    simp only [Member.all, List.flatMap_cons, List.flatMap_nil, List.append_nil, List.append_assoc]
  rw [joined]
  unfold ofMembers at failed
  dsimp only at failed
  unfold Except.mapError at failed
  split at failed
  · cases failed
    rfl
  · cases failed

/-- An object is read exactly if no member is faulty. -/
theorem exists_read_iff :
    (∃ op, read (.object members) rule = .ok op) ↔ ∀ m : Member, ¬ m.Faulty rule members := by
  simp only [Member.faulty_iff, not_not]
  constructor
  · rintro ⟨op, made⟩ m
    have sent := read_object_iff.mp made
    cases m with
    | sender => exact defectOf_eq_nil_iff.mpr ⟨_, sent.sender⟩
    | quantity q => exact defectOf_eq_nil_iff.mpr ⟨_, sent.quantity q⟩
    | bytes b => exact defectOf_eq_nil_iff.mpr ⟨_, sent.bytes b⟩
  · intro sound
    obtain ⟨⟨sender, kept⟩, senderRead⟩ := defectOf_eq_nil_iff.mp (sound .sender)
    choose quantity quantityRead using fun q => defectOf_eq_nil_iff.mp (sound (.quantity q))
    choose byteString byteStringRead using fun b => defectOf_eq_nil_iff.mp (sound (.bytes b))
    refine ⟨⟨sender, kept, quantity .nonce, byteString .initCode, byteString .callData,
      quantity .callGas, quantity .verificationGas, quantity .preVerificationGas,
      quantity .maxFee, quantity .maxPriorityFee, byteString .paymasterAndData,
      byteString .signature⟩, read_object_iff.mpr ⟨senderRead, fun q => ?_, fun b => ?_⟩⟩
    · rw [quantityRead q]
      cases q <;> rfl
    · rw [byteStringRead b]
      cases b <;> rfl

/-- Defects of different members have different names. -/
theorem nodup_locations {faulty : List Member} {ds : List Defect} (nodup : faulty.Nodup)
    (blamed : List.Forall₂ (fun m d => m.Blamed rule members d) faulty ds) :
    (ds.map Defect.location).Nodup := by
  induction blamed with
  | nil => exact List.nodup_nil
  | @cons m d faulty ds blames rest ih =>
    obtain ⟨new, nodup⟩ := List.nodup_cons.mp nodup
    refine List.nodup_cons.mpr ⟨fun again => ?_, ih nodup⟩
    obtain ⟨d', member, same⟩ := List.mem_map.mp again
    obtain ⟨i, bound, rfl⟩ := List.getElem_of_mem member
    have bound' : i < faulty.length := rest.length_eq ▸ bound
    have blames' := (rest.get bound' bound).has
    have ne : m ≠ faulty[i] := fun same => new (same ▸ List.getElem_mem bound')
    exact (Member.names_apart ne).not_has blames.has (same ▸ blames')

/-- If both names of a member are given, the first one decides. -/
theorem read_put_second {m : Member} {given : Json}
    (first : members.value? m.names.first = some given)
    (ne : m.names.second ≠ m.names.first) (value : Json) :
    read (.object (members.put m.names.second value)) rule = read (.object members) rule := by
  have kept (m' : Member) :
      m'.names.find? (members.put m.names.second value) = m'.names.find? members := by
    by_cases own : m' = m
    · subst own
      have stays := Entries.lookup_put_of_ne (Ne.symm ne) members value
      rw [Names.find?, Names.find?, Entries.value?, stays, ← Entries.value?, first]
    · have apart := Member.names_apart (Ne.symm own)
      exact Names.find?_put_of_not_has (apart.not_has (.inr rfl)) members value
  exact read_eq_of_find? (kept .sender) (fun q => kept (.quantity q)) fun b => kept (.bytes b)

/-- Defects are reported completely, whatever the rule for the letter case of addresses. An object
is read as an operation exactly if every member without a default is sent and every value that is
sent fits. Otherwise the parameters are invalid, and the data of the error lists the faulty members
and no others, each once, in the order of the contract, under the name that was used or the first
one of a missing member. If both names are given the first one decides. The sender of an operation
is kept as its checksummed text, in whatever letter case it was sent, and its quantities are
words. -/
theorem defects_reported (rule : Address.CaseRule) (members : Entries Text Json) :
    ((∃ op, read (.object members) rule = .ok op) ↔
      (∀ m : Member, m.isRequired = true → ¬ m.names.Missing members) ∧
      ∀ (m : Member) location value, m.names.Sends members location value → m.Fits rule value) ∧
    ((¬ ∃ op, read (.object members) rule = .ok op) →
      ∃ (faulty : List Member) (ds : List Defect),
        faulty.Sublist Member.all ∧ (∀ m, m ∈ faulty ↔ m.Faulty rule members) ∧
        List.Forall₂ (fun m d => m.Blamed rule members d) faulty ds ∧
        (ds.map Defect.location).Nodup ∧
        read (.object members) rule = .error (.because .invalidParams
          ("Invalid user operation: "
            ++ Text.join "; " (ds.map fun d => d.location ++ ": " ++ d.message)))) ∧
    (∀ (m : Member) (given value : Json), members.value? m.names.first = some given →
      m.names.second ≠ m.names.first →
        read (.object (members.put m.names.second value)) rule = read (.object members) rule) ∧
    ∀ op, read (.object members) rule = .ok op →
      (∃ location t, senderNames.Sends members location (.text t) ∧ op.sender.Spells t) ∧
        op.sender.Checksummed op.senderText ∧ ∀ q, op.quantity q < 2 ^ 256 := by
  refine ⟨?_, fun failed => ?_, fun m given value first ne => read_put_second first ne value,
    fun op made => ⟨?_, ?_, quantity_lt_of_read made⟩⟩
  · rw [exists_read_iff]
    constructor
    · exact fun sound => ⟨fun m required missing => sound m (.inl ⟨required, missing⟩),
        fun m location value sends => by_contra fun unfit =>
          sound m (.inr ⟨location, value, sends, unfit⟩)⟩
    · rintro ⟨present, fit⟩ m (⟨required, missing⟩ | ⟨location, value, sends, unfit⟩)
      · exact present m required missing
      · exact unfit (fit m location value sends)
  · obtain ⟨faulty, sublist, mem_iff, blamed⟩ :=
      exists_sublist_forall₂ (@Member.defects_cases rule members) Member.Blamed.faulty Member.all
    refine ⟨faulty, _, sublist, fun m => ?_, blamed,
      nodup_locations (Member.nodup_all.sublist sublist) blamed, ?_⟩
    · rw [mem_iff, and_iff_right m.mem_all]
    · cases made : ofMembers members rule with
      | ok op => exact absurd ⟨op, by rw [read, made]; rfl⟩ failed
      | error ds =>
        rw [← defects_of_ofMembers made, read, made]
        rfl
  · obtain ⟨location, t, found, recognized, -⟩ := (read_object_iff.mp made).sender_value
    have spells := (Address.recognize?_iff.mp recognized).1
    exact ⟨location, t, Names.find?_eq_some_iff.mp found, spells⟩
  · exact Address.checksummed_iff.mpr (senderText_of_read made)

example :
    read (.object [("nonce", .text "x"), ("call_data", .text "0x"), ("max_fee_per_gas", .int (-1)),
        ("maxPriorityFeePerGas", .int 1), ("max_priority_fee_per_gas", .null)])
      = .error (.because .invalidParams
        ("Invalid user operation: sender: Field required; "
          ++ "nonce: Value error, quantity must be hex (0x...) or decimal; "
          ++ "max_fee_per_gas: Value error, quantity out of uint256 range")) := rfl

end UserOperation

end Paymaster

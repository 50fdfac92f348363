import Paymaster.Chain.Abi
import Paymaster.UserOperation.Wire

/-!
# What is read of an operation

An operation is read exactly if each of its members is the value that was sent for it, or a
default (`UserOperation.read_object_iff`). So its sender is the address that the value of
`sender` denotes (`UserOperation.sender_of_read`) and is kept in the case of its checksum
(`UserOperation.senderText_of_read`), and every quantity of it fits a word
(`UserOperation.fits_of_read`). Names of no member do not matter
(`UserOperation.read_put_of_unknown`). All this is so under any rule for the letter case of
addresses, and what is read under one is the same operation under the widest
(`UserOperation.read_of_rule`).
-/

namespace Paymaster.UserOperation

/-! ## Places of an operation -/

/-- The members that are quantities. -/
inductive QuantityMember where
  | nonce | callGas | verificationGas | preVerificationGas | maxFee | maxPriorityFee
  deriving DecidableEq, Repr

/-- The members that are byte strings. -/
inductive BytesMember where
  | initCode | callData | paymasterAndData | signature
  deriving DecidableEq, Repr

def QuantityMember.all : List QuantityMember :=
  [.nonce, .callGas, .verificationGas, .preVerificationGas, .maxFee, .maxPriorityFee]

def BytesMember.all : List BytesMember :=
  [.initCode, .callData, .paymasterAndData, .signature]

theorem QuantityMember.mem_all (q : QuantityMember) : q ∈ all := by
  cases q <;> decide

theorem BytesMember.mem_all (b : BytesMember) : b ∈ all := by
  cases b <;> decide

abbrev QuantityMember.names : QuantityMember → Names
  | .nonce => ⟨"nonce", "nonce"⟩
  | .callGas => ⟨"callGasLimit", "call_gas_limit"⟩
  | .verificationGas => ⟨"verificationGasLimit", "verification_gas_limit"⟩
  | .preVerificationGas => ⟨"preVerificationGas", "pre_verification_gas"⟩
  | .maxFee => ⟨"maxFeePerGas", "max_fee_per_gas"⟩
  | .maxPriorityFee => ⟨"maxPriorityFeePerGas", "max_priority_fee_per_gas"⟩

abbrev BytesMember.names : BytesMember → Names
  | .initCode => ⟨"initCode", "init_code"⟩
  | .callData => ⟨"callData", "call_data"⟩
  | .paymasterAndData => ⟨"paymasterAndData", "paymaster_and_data"⟩
  | .signature => ⟨"signature", "signature"⟩

abbrev QuantityMember.default? : QuantityMember → Option Nat
  | .nonce | .maxFee | .maxPriorityFee => none
  | .callGas | .verificationGas | .preVerificationGas => some 0

abbrev BytesMember.default? : BytesMember → Option Bytes
  | .callData => none
  | .initCode | .paymasterAndData | .signature => some []

def quantity (op : UserOperation) : QuantityMember → Nat
  | .nonce => op.nonce
  | .callGas => op.callGasLimit
  | .verificationGas => op.verificationGasLimit
  | .preVerificationGas => op.preVerificationGas
  | .maxFee => op.maxFeePerGas
  | .maxPriorityFee => op.maxPriorityFeePerGas

def byteString (op : UserOperation) : BytesMember → Bytes
  | .initCode => op.initCode
  | .callData => op.callData
  | .paymasterAndData => op.paymasterAndData
  | .signature => op.signature

/-- The operation with one quantity changed. -/
def withQuantity (op : UserOperation) (place : QuantityMember) (n : Nat) : UserOperation :=
  match place with
  | .nonce => { op with nonce := n }
  | .callGas => { op with callGasLimit := n }
  | .verificationGas => { op with verificationGasLimit := n }
  | .preVerificationGas => { op with preVerificationGas := n }
  | .maxFee => { op with maxFeePerGas := n }
  | .maxPriorityFee => { op with maxPriorityFeePerGas := n }

@[simp] theorem sender_withQuantity (op : UserOperation) (place : QuantityMember) (n : Nat) :
    (op.withQuantity place n).sender = op.sender := by
  cases place <;> rfl

@[simp] theorem senderText_withQuantity (op : UserOperation) (place : QuantityMember) (n : Nat) :
    (op.withQuantity place n).senderText = op.senderText := by
  cases place <;> rfl

@[simp] theorem byteString_withQuantity (op : UserOperation) (place : QuantityMember) (n : Nat) :
    (op.withQuantity place n).byteString = op.byteString := by
  funext b
  cases place <;> rfl

@[simp] theorem quantity_withQuantity_self (op : UserOperation) (place : QuantityMember) (n : Nat) :
    (op.withQuantity place n).quantity place = n := by
  cases place <;> rfl

theorem quantity_withQuantity_of_ne (op : UserOperation) {place other : QuantityMember}
    (ne : other ≠ place) (n : Nat) :
    (op.withQuantity place n).quantity other = op.quantity other := by
  cases place <;> cases other <;> first | rfl | exact absurd rfl ne

/-! ## Names -/

/-- One of the two names of a member. -/
def Names.Has (names : Names) (key : Text) : Prop :=
  key = names.first ∨ key = names.second

instance (names : Names) (key : Text) : Decidable (names.Has key) :=
  inferInstanceAs (Decidable (_ ∨ _))

abbrev senderNames : Names := ⟨"sender", "sender"⟩

/-- A member with no name in common with a quantity. -/
def Names.Apart (names names' : Names) : Prop :=
  ¬ names'.Has names.first ∧ ¬ names'.Has names.second

instance (names names' : Names) : Decidable (names.Apart names') :=
  inferInstanceAs (Decidable (_ ∧ _))

theorem Names.Apart.not_has {names names' : Names} (apart : names.Apart names') {key : Text}
    (named : names.Has key) : ¬ names'.Has key := by
  rcases named with rfl | rfl
  · exact apart.1
  · exact apart.2

theorem QuantityMember.names_apart {q q' : QuantityMember} (ne : q ≠ q') :
    q.names.Apart q'.names := by
  have table : ∀ q ∈ all, ∀ q' ∈ all, q ≠ q' → q.names.Apart q'.names := by decide +kernel
  exact table q q.mem_all q' q'.mem_all ne

theorem QuantityMember.names_apart_bytes (q : QuantityMember) (b : BytesMember) :
    q.names.Apart b.names := by
  have table : ∀ q ∈ all, ∀ b ∈ BytesMember.all, q.names.Apart b.names := by decide +kernel
  exact table q q.mem_all b b.mem_all

theorem QuantityMember.names_apart_sender (q : QuantityMember) : q.names.Apart senderNames := by
  have table : ∀ q ∈ all, q.names.Apart senderNames := by decide +kernel
  exact table q q.mem_all

/-! ## Members -/

variable {rule : Address.CaseRule}

/-- Where the members of an operation come from. -/
structure Sent (rule : Address.CaseRule) (members : Entries Text Json) (op : UserOperation) :
    Prop where
  sender : member members senderNames none (readSender rule) = .ok (op.sender, op.senderText)
  quantity : ∀ q : QuantityMember,
    member members q.names q.default? readQuantity = .ok (op.quantity q)
  bytes : ∀ b : BytesMember, member members b.names b.default? readBytes = .ok (op.byteString b)

theorem bind_eq_ok {α β ε : Type} {x : Except ε α} {f : α → Except ε β} {b : β}
    (bound : x >>= f = .ok b) : ∃ a, x = .ok a ∧ f a = .ok b := by
  cases x with
  | error e => cases bound
  | ok a => exact ⟨a, rfl, bound⟩

theorem eq_ok_of_mapError {α ε ε' : Type} {x : Except ε α} {f : ε → ε'} {a : α}
    (mapped : x.mapError f = .ok a) : x = .ok a := by
  cases x with
  | error e => cases mapped
  | ok b =>
    cases mapped
    rfl

theorem mapError_eq_ok_iff {α ε ε' : Type} {x : Except ε α} {f : ε → ε'} {a : α} :
    x.mapError f = .ok a ↔ x = .ok a := by
  refine ⟨eq_ok_of_mapError, fun same => ?_⟩
  rw [same]
  rfl

/-- An operation is read exactly if each of its members is. -/
theorem ofMembers_eq_ok_iff {members : Entries Text Json} {op : UserOperation} :
    ofMembers members rule = .ok op ↔ Sent rule members op := by
  constructor
  · intro made
    unfold ofMembers at made
    obtain ⟨⟨sender, senderText⟩, senderRead, made⟩ := bind_eq_ok (eq_ok_of_mapError made)
    obtain ⟨nonce, nonceRead, made⟩ := bind_eq_ok made
    obtain ⟨initCode, initCodeRead, made⟩ := bind_eq_ok made
    obtain ⟨callData, callDataRead, made⟩ := bind_eq_ok made
    obtain ⟨callGas, callGasRead, made⟩ := bind_eq_ok made
    obtain ⟨verificationGas, verificationGasRead, made⟩ := bind_eq_ok made
    obtain ⟨preVerificationGas, preVerificationGasRead, made⟩ := bind_eq_ok made
    obtain ⟨maxFee, maxFeeRead, made⟩ := bind_eq_ok made
    obtain ⟨maxPriorityFee, maxPriorityFeeRead, made⟩ := bind_eq_ok made
    obtain ⟨paymasterAndData, paymasterAndDataRead, made⟩ := bind_eq_ok made
    obtain ⟨signature, signatureRead, made⟩ := bind_eq_ok made
    cases made
    refine ⟨senderRead, fun q => ?_, fun b => ?_⟩
    · cases q with
      | nonce => exact nonceRead
      | callGas => exact callGasRead
      | verificationGas => exact verificationGasRead
      | preVerificationGas => exact preVerificationGasRead
      | maxFee => exact maxFeeRead
      | maxPriorityFee => exact maxPriorityFeeRead
    · cases b with
      | initCode => exact initCodeRead
      | callData => exact callDataRead
      | paymasterAndData => exact paymasterAndDataRead
      | signature => exact signatureRead
  · intro sent
    unfold ofMembers
    rw [sent.sender, sent.quantity .nonce, sent.bytes .initCode, sent.bytes .callData,
      sent.quantity .callGas, sent.quantity .verificationGas, sent.quantity .preVerificationGas,
      sent.quantity .maxFee, sent.quantity .maxPriorityFee, sent.bytes .paymasterAndData,
      sent.bytes .signature]
    rfl

/-- Only an object is read, and its members decide. -/
theorem read_object_iff {members : Entries Text Json} {op : UserOperation} :
    read (.object members) rule = .ok op ↔ Sent rule members op := by
  rw [← ofMembers_eq_ok_iff, read, mapError_eq_ok_iff]

theorem sent_of_read {raw : Json} {op : UserOperation} (made : read raw rule = .ok op) :
    ∃ members, raw = .object members ∧ Sent rule members op := by
  cases raw with
  | object members => exact ⟨members, rfl, read_object_iff.mp made⟩
  | _ => cases made

/-- An object that is not read has invalid parameters. -/
theorem read_object_cases (members : Entries Text Json) :
    (∃ op, read (.object members) rule = .ok op) ∨
      ∃ reason, read (.object members) rule = .error (.because .invalidParams reason) := by
  cases made : ofMembers members rule with
  | ok op => exact .inl ⟨op, read_object_iff.mpr (ofMembers_eq_ok_iff.mp made)⟩
  | error defects =>
    rw [read, made]
    exact .inr ⟨_, rfl⟩

/-- A member is read from the value under one of its names, or is the default. -/
theorem member_eq_ok {α : Type} {members : Entries Text Json} {names : Names}
    {default? : Option α} {read : Json → Except Text α} {a : α}
    (made : member members names default? read = .ok a) :
    (∃ location value, names.find? members = some (location, value) ∧ read value = .ok a) ∨
      default? = some a := by
  unfold member at made
  split at made
  · rename_i location value found
    cases given : read value with
    | error message =>
      rw [given] at made
      cases made
    | ok b =>
      rw [given] at made
      cases made
      exact .inl ⟨location, value, found, given⟩
  · split at made
    · cases made
      exact .inr rfl
    · cases made

/-- A sender is an address as which a text is recognized, in the case of its checksum. -/
theorem readSender_eq_ok_iff {value : Json} {a : Address} {kept : Text} :
    readSender rule value = .ok (a, kept) ↔
      (∃ t, value = .text t ∧ Address.recognize? rule t = some a) ∧ kept = a.checksum := by
  unfold readSender
  constructor
  · intro made
    split at made
    · rename_i b recognized
      cases made
      obtain ⟨t, sent, recognized⟩ := Option.bind_eq_some_iff.mp recognized
      refine ⟨⟨t, ?_, recognized⟩, rfl⟩
      cases value <;> cases sent
      rfl
    · cases made
  · rintro ⟨⟨t, rfl, recognized⟩, rfl⟩
    rw [Json.asText?, Option.bind_some, recognized]

/-- The value under which the sender of an operation was sent. -/
theorem Sent.sender_value {members : Entries Text Json} {op : UserOperation}
    (sent : Sent rule members op) :
    ∃ location t, senderNames.find? members = some (location, .text t) ∧
      Address.recognize? rule t = some op.sender ∧ op.senderText = op.sender.checksum := by
  rcases member_eq_ok sent.sender with ⟨location, value, found, given⟩ | none
  · obtain ⟨⟨t, rfl, recognized⟩, kept⟩ := readSender_eq_ok_iff.mp given
    exact ⟨location, t, found, recognized, kept⟩
  · cases none

/-- The sender of an operation is the address that was sent. -/
theorem sender_of_read {raw : Json} {op : UserOperation} {s : Text} (made : read raw rule = .ok op)
    (named : raw.get? "sender" = some (.text s)) : Address.ofText? s = some op.sender := by
  obtain ⟨members, rfl, sent⟩ := sent_of_read made
  have value : Entries.value? members "sender" = some (Json.text s) := named
  obtain ⟨location, t, found, recognized, -⟩ := sent.sender_value
  rw [senderNames, Names.find?, value] at found
  cases found
  exact (Address.recognize?_eq_some_iff.mp recognized).1

/-- The sender of an operation is kept in the case of its checksum. -/
theorem senderText_of_read {raw : Json} {op : UserOperation} (made : read raw rule = .ok op) :
    op.senderText = op.sender.checksum := by
  obtain ⟨members, rfl, sent⟩ := sent_of_read made
  obtain ⟨_, _, _, _, kept⟩ := sent.sender_value
  exact kept

/-- The value that decides a member is read. -/
theorem member_of_find? {α : Type} {members : Entries Text Json} {names : Names}
    {default? : Option α} {read : Json → Except Text α} {location : Text} {value : Json} {a : α}
    (found : names.find? members = some (location, value)) :
    member members names default? read = .ok a ↔ read value = .ok a := by
  unfold member
  rw [found]
  exact mapError_eq_ok_iff

/-- A rule for letter case changes nothing in an operation that is read under it. -/
theorem read_of_rule {raw : Json} {op : UserOperation} (made : read raw rule = .ok op) :
    read raw = .ok op := by
  obtain ⟨members, rfl, sent⟩ := sent_of_read made
  obtain ⟨location, t, found, recognized, kept⟩ := sent.sender_value
  have denotes : Address.recognize? .any t = some op.sender := by
    rw [Address.recognize?_any]
    exact (Address.recognize?_eq_some_iff.mp recognized).1
  refine read_object_iff.mpr ⟨(member_of_find? found).mpr ?_, sent.quantity, sent.bytes⟩
  exact readSender_eq_ok_iff.mpr ⟨⟨t, rfl, denotes⟩, kept⟩

theorem member_congr {α : Type} {names : Names} {members members' : Entries Text Json}
    (same : names.find? members' = names.find? members) (default? : Option α)
    (read : Json → Except Text α) :
    member members' names default? read = member members names default? read := by
  unfold member
  rw [same]

/-- An object is read as another one if the same is found for every member. -/
theorem read_eq_of_find? {members members' : Entries Text Json}
    (sender : senderNames.find? members' = senderNames.find? members)
    (quantities : ∀ q : QuantityMember, q.names.find? members' = q.names.find? members)
    (bytes : ∀ b : BytesMember, b.names.find? members' = b.names.find? members) :
    read (.object members') rule = read (.object members) rule := by
  have quantity (q : QuantityMember) := member_congr (quantities q) q.default? readQuantity
  have byteString (b : BytesMember) := member_congr (bytes b) b.default? readBytes
  have made : ofMembers members' rule = ofMembers members rule := by
    unfold ofMembers
    rw [member_congr sender, quantity .nonce, byteString .initCode, byteString .callData,
      quantity .callGas, quantity .verificationGas, quantity .preVerificationGas,
      quantity .maxFee, quantity .maxPriorityFee, byteString .paymasterAndData,
      byteString .signature]
  rw [read, read, made]

/-- What is found for a member stays when another name is set. -/
theorem Names.find?_put_of_not_has {names : Names} {key : Text} (other : ¬ names.Has key)
    (members : Entries Text Json) (value : Json) :
    names.find? (members.put key value) = names.find? members := by
  obtain ⟨first, second⟩ := not_or.mp other
  rw [find?, find?, Entries.value?, Entries.value?, Entries.lookup_put_of_ne (Ne.symm first),
    Entries.lookup_put_of_ne (Ne.symm second)]

/-- A member keeps its value when another name is set. -/
theorem member_put_of_not_has {α : Type} {names : Names} {key : Text} (other : ¬ names.Has key)
    (members : Entries Text Json) (value : Json) (default? : Option α)
    (read : Json → Except Text α) :
    member (members.put key value) names default? read = member members names default? read :=
  member_congr (Names.find?_put_of_not_has other members value) default? read

theorem lt_of_readQuantity {j : Json} {n : Nat} (made : readQuantity j = .ok n) :
    n < Quantity.bound := by
  unfold readQuantity Quantity.read at made
  split at made
  · cases made
  · split at made
    · cases made
    · rename_i m inside
      cases made
      omega

theorem lt_of_quantity {members : Entries Text Json} {names : Names} {default? : Option Nat}
    (small : ∀ n, default? = some n → n < Quantity.bound) {n : Nat}
    (made : member members names default? readQuantity = .ok n) : n < Quantity.bound := by
  rcases member_eq_ok made with ⟨_, _, -, given⟩ | default
  · exact lt_of_readQuantity given
  · exact small n default

theorem QuantityMember.lt_of_default? {q : QuantityMember} {n : Nat}
    (default : q.default? = some n) : n < Quantity.bound := by
  have positive : 0 < Quantity.bound := by decide
  have zero : n = 0 := by
    cases q <;> simp [default?] at default <;> exact default.symm
  rwa [zero]

/-- Every quantity of an operation that is read is below the bound of a word. -/
theorem quantity_lt_of_read {raw : Json} {op : UserOperation} (made : read raw rule = .ok op)
    (q : QuantityMember) : op.quantity q < Quantity.bound := by
  obtain ⟨members, -, sent⟩ := sent_of_read made
  exact lt_of_quantity (fun _ => QuantityMember.lt_of_default?) (sent.quantity q)

/-- Every member of an operation that is read fits its place in a call. -/
theorem fits_of_read {raw : Json} {op : UserOperation} (made : read raw rule = .ok op) :
    ∀ field ∈ op.fields, Abi.fitsField field = true := by
  have fits (q : QuantityMember) : Abi.fitsField (.quantity (op.quantity q)) = true :=
    decide_eq_true (quantity_lt_of_read made q)
  have nonce := fits .nonce
  have callGas := fits .callGas
  have verificationGas := fits .verificationGas
  have preVerificationGas := fits .preVerificationGas
  have maxFee := fits .maxFee
  have maxPriorityFee := fits .maxPriorityFee
  intro field member
  simp only [fields, List.mem_cons, List.not_mem_nil, or_false] at member
  rcases member with rfl | rfl | rfl | rfl | rfl | rfl | rfl | rfl | rfl | rfl | rfl
  all_goals first | assumption | rfl

end Paymaster.UserOperation

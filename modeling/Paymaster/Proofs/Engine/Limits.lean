import Paymaster.Proofs.Engine.Outcomes
import Paymaster.Proofs.UserOperation.Shortest

/-!
# Limits come back

A sponsorship carries its limits as shortest byte strings, and only limits that fit a word are
ever signed. So an operation that was sponsored is read again once the limits of the sponsorship
are put back into it, and then has the limits that were signed (`UserOperation.read_of_putBack`).
This holds of every call of a run that has a sponsorship, as every number is written in one way
that all readers invert (`Engine.limits_inverted`).
-/

namespace Paymaster

namespace UserOperation

/-- The limits of an operation. -/
def limits (op : UserOperation) : GasLimits :=
  ⟨op.preVerificationGas, op.verificationGasLimit, op.callGasLimit⟩

/-- The quantities that are limits. -/
def limitMembers : List QuantityMember :=
  [.preVerificationGas, .verificationGas, .callGas]

/-! ## Putting limits back -/

/-- Members that carry the limits of a sponsorship, each under its first name or under its second
name alone, and are otherwise as they were. -/
structure PutBack (s : Sponsorship) (members members' : Entries Text Json) : Prop where
  preVerificationGas :
    QuantityMember.preVerificationGas.names.Carry members' (.text s.preVerificationGas)
  verificationGas :
    QuantityMember.verificationGas.names.Carry members' (.text s.verificationGasLimit)
  callGas : QuantityMember.callGas.names.Carry members' (.text s.callGasLimit)
  others : ∀ key, (∀ q ∈ limitMembers, ¬ q.names.Has key) →
    members'.value? key = members.value? key

/-- The members with the limits of a sponsorship under their first names. -/
def withLimitsOf (s : Sponsorship) (members : Entries Text Json) : Entries Text Json :=
  ((members.put "preVerificationGas" (.text s.preVerificationGas)).put
    "verificationGasLimit" (.text s.verificationGasLimit)).put
    "callGasLimit" (.text s.callGasLimit)

theorem putBack_withLimitsOf (s : Sponsorship) (members : Entries Text Json) :
    PutBack s members (withLimitsOf s members) := by
  have apart : ("preVerificationGas" : Text) ≠ "verificationGasLimit" ∧
      ("preVerificationGas" : Text) ≠ "callGasLimit" ∧
      ("verificationGasLimit" : Text) ≠ "callGasLimit" := by decide
  refine ⟨.inl ?_, .inl ?_, .inl ?_, fun key other => ?_⟩
  · rw [withLimitsOf, Entries.value?, Entries.lookup_put_of_ne apart.2.1,
      Entries.lookup_put_of_ne apart.1, Entries.lookup_put_self]
  · rw [withLimitsOf, Entries.value?, Entries.lookup_put_of_ne apart.2.2,
      Entries.lookup_put_self]
  · rw [withLimitsOf, Entries.value?, Entries.lookup_put_self]
  · have first := other .preVerificationGas (by decide)
    have second := other .verificationGas (by decide)
    have third := other .callGas (by decide)
    rw [withLimitsOf, Entries.value?, Entries.lookup_put_of_ne fun same => third (.inl same),
      Entries.lookup_put_of_ne fun same => second (.inl same),
      Entries.lookup_put_of_ne fun same => first (.inl same)]

section PutBack

variable {s : Sponsorship} {members members' : Entries Text Json}

/-- A member that is no limit is found as it was. -/
theorem PutBack.find? (back : PutBack s members members') {m : Member}
    (other : ∀ q ∈ limitMembers, m ≠ .quantity q) :
    m.names.find? members' = m.names.find? members := by
  have first := back.others m.names.first fun q limit => (Member.names_apart (other q limit)).1
  have second := back.others m.names.second fun q limit => (Member.names_apart (other q limit)).2
  rw [Names.find?, Names.find?, first, second]

/-- A limit that fits a word is read back. -/
theorem member_of_carried {q : QuantityMember} {n : Nat}
    (carried : q.names.Carry members' (.text (ByteString.ofNat n))) (small : n < 2 ^ 256) :
    member members' q.names q.default? readQuantity = .ok n := by
  refine carried.member_eq_ok (mapError_eq_ok_iff.mpr ?_)
  rw [ByteString.read_quantity_ofNat, if_pos small]

/-- An operation into which the limits of its sponsorship are put back is read with them. -/
theorem read_of_putBack {op : UserOperation} {data : Bytes} {limits : GasLimits}
    (made : read (.object members) = .ok op) (fit : Engine.LimitsFit limits)
    (back : PutBack (.ofData data limits) members members') :
    read (.object members') = .ok (op.withGasLimits limits) := by
  have sent := read_object_iff.mp made
  obtain ⟨first, second, third⟩ := fit
  have kept {q : QuantityMember} (other : q ∉ limitMembers) :
      member members' q.names q.default? readQuantity = .ok (op.quantity q) := by
    have found := back.find? (m := .quantity q) fun q' limit same =>
      other (Member.quantity.inj same ▸ limit)
    rw [member_congr found]
    exact sent.quantity q
  refine read_object_iff.mpr ⟨?_, fun q => ?_, fun b => ?_⟩
  · rw [member_congr (back.find? (m := .sender) fun _ _ => Member.noConfusion)]
    exact sent.sender
  · cases q with
    | preVerificationGas => exact member_of_carried back.preVerificationGas first
    | verificationGas => exact member_of_carried back.verificationGas second
    | callGas => exact member_of_carried back.callGas third
    | nonce => exact kept (by decide)
    | maxFee => exact kept (by decide)
    | maxPriorityFee => exact kept (by decide)
  · rw [member_congr (back.find? (m := .bytes b) fun _ _ => Member.noConfusion)]
    exact sent.bytes b

end PutBack

end UserOperation

namespace Engine

/-! ## Runs -/

/-- A call ended by having an operation hashed and signed, and the operation that was sent to it
is read with the limits of that one once the limits of its result are put back. -/
def LimitsComeBack (engine : Engine) (raw : Json) (result : Sponsorship) (h : List Exchange) :
    Prop :=
  ∃ members op range before data answer n signature,
    raw = .object members ∧ UserOperation.read raw = .ok op ∧
    h = before ++
      [⟨.callContract engine.client.paymaster data, answer⟩,
       ⟨.sign engine.client.signer (Bytes.word n), some signature⟩] ∧
    Abi.HashCall.data? ⟨engine.signingOperation op range, range.validUntil, range.validAfter⟩
      = some data ∧
    told answer = some n ∧
    ∀ members', UserOperation.PutBack result members members' →
      UserOperation.read (.object members')
        = .ok (op.withGasLimits (engine.signingOperation op range).limits)

theorem limitsComeBack_of_completes {engine : Engine} {raw : Json} {result : Sponsorship}
    {h : List Exchange} (completes : Completes engine (.sponsor raw) h (.authorized result)) :
    LimitsComeBack engine raw result h := by
  obtain ⟨fit, -⟩ := signable_of_completes completes
  obtain ⟨op, source, found, a, b, signing, read, -, authorized, rfl⟩ :=
    Completes.of_authorized completes
  obtain ⟨members, rfl, -⟩ := UserOperation.sent_of_read read
  cases authorized with
  | @signed now range data answer n signature within fits number =>
    refine ⟨members, op, range, held source (senderKey op) found [] a b ++ [⟨.clock, now⟩], data,
      answer, n, signature, rfl, read, ?_, fits, number, fun members' back => ?_⟩
    · rw [List.append_assoc]
      rfl
    · exact UserOperation.read_of_putBack read fit back

/-- Limits have one shortest byte string, which all readers invert. Every number is written in
this form and no two in the same way, no other texts than these have the form, and the limits of a
sponsorship, put back into its operation, are read as the limits that were signed. -/
theorem limits_inverted :
    (∀ n, ByteString.Inverted (ByteString.ofNat n) n) ∧
    Function.Injective ByteString.ofNat ∧
    (∀ digits, Hex.Shortest digits ↔
      ∃ n, ByteString.ofNat n = ('0' :: 'x' :: digits : Text)) ∧
    ∀ (calls : List (Engine × Call)) (accounts : AccountTable)
      (s : Traffic (Except Failure Reply)) (events : List Event),
      (traffic calls accounts).Run events s →
      ∀ (i : Nat) (engine : Engine) (raw : Json) (result : Sponsorship),
        calls[i]? = some (engine, .sponsor raw) →
        s.programs[i]? = some (.done (.ok (.authorized result))) →
          LimitsComeBack engine raw result (Event.history i events) := by
  refine ⟨ByteString.inverted_ofNat, ByteString.ofNat_injective,
    fun digits => ByteString.shortest_iff,
    fun calls accounts s events run i engine raw result named done => ?_⟩
  exact limitsComeBack_of_completes
    (run.ended (started_traffic named) (follows_serve engine _) done)

/-- Limits of no byte, one byte and two bytes come back. -/
theorem limits_inverted_widths :
    let run := alone ⟨1, 256, 0⟩
    ∃ result members op, sponsorship? run.2.2 0 = some result ∧
      result.preVerificationGas = ("0x01" : Text) ∧
      result.verificationGasLimit = ("0x0100" : Text) ∧ result.callGasLimit = ("0x" : Text) ∧
      plainOperation = .object members ∧
      UserOperation.read (.object (UserOperation.withLimitsOf result members)) = .ok op ∧
      op.limits = ⟨1, 256, 0⟩ := by
  intro run
  have texts : (sponsorship? run.2.2 0).map
      (fun r => (r.preVerificationGas, r.verificationGasLimit, r.callGasLimit))
        = some (("0x01" : Text), ("0x0100" : Text), ("0x" : Text)) := by decide +kernel
  obtain ⟨result, given, same⟩ := Option.map_eq_some_iff.mp texts
  obtain ⟨first, second, third⟩ : _ ∧ _ ∧ _ := by simpa only [Prod.mk.injEq] using same
  obtain ⟨members, op, range, -, -, -, -, -, sent, -, -, -, -, back⟩ :=
    limits_inverted.2.2.2 run.1 [richRow] run.2.2 run.2.1 (Traffic.run_play _ _) 0
      { small none with limits := ⟨1, 256, 0⟩ } plainOperation result rfl
      (done_of_sponsorship? given)
  exact ⟨result, members, _, given, first, second, third, sent,
    back _ (UserOperation.putBack_withLimitsOf result members), rfl⟩

end Engine

end Paymaster

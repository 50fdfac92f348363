import Paymaster.Proofs.Authorization
import Paymaster.Proofs.Ledger.Books

/-!
# What is signed is what was charged

A sponsorship that is given was charged first: its call looked its sender up, committed the
most that the operation can cost under the limits of the engine, and only then had the
operation hashed and signed (`Engine.Sponsored`). The operation that is hashed carries the
limits that were charged (`Engine.signedOperation`), and the caller gets the same limits and
the same data, with the signature in the place of the zeros. This holds of every call of a run
that has a sponsorship (`Engine.sponsored_of_run`).
-/

namespace Paymaster

theorem Exchange.findAccount_inj {key key' : Text} {found found' : Option Account}
    (same : (⟨.findAccount key, .ok found⟩ : Exchange) = ⟨.findAccount key', .ok found'⟩) :
    key = key' ∧ found = found' := by
  cases same
  exact ⟨rfl, rfl⟩

namespace Engine

theorem of_rangeAt {now : Instant} {range : TimeRange} (within : rangeAt now = .ok range) :
    (range.validUntil : Int) = now.unixSeconds + 86400 ∧
      (range.validAfter : Int) = now.unixSeconds := by
  simp only [rangeAt, validityWindow, validitySeconds] at within
  cases made : TimeRange.ofInts (now.unixSeconds + 86400) now.unixSeconds with
  | error value =>
    rw [made] at within
    cases within
  | ok range' =>
    rw [made] at within
    cases within
    exact TimeRange.ofInts_eq_ok_iff.mp made

/-- The operation that is hashed for another one: under the limits that are charged, with
data of the paymaster, a time range and zeros, and without a signature. -/
def signedOperation (paymaster : Address) (op : UserOperation) (limits : GasLimits)
    (range : TimeRange) : UserOperation :=
  { op with
    preVerificationGas := limits.preVerification
    verificationGasLimit := limits.verification
    callGasLimit := limits.call
    paymasterAndData := paymaster.bytes ++ (Bytes.word range.validUntil
      ++ Bytes.word range.validAfter) ++ Bytes.zeros 65
    signature := [] }

/-- The result of a sponsorship, told by the operation that was hashed and by the signature. -/
structure Returned (op : UserOperation) (signature : Signature) (result : Sponsorship) :
    Prop where
  data : ∃ returned, result.paymasterAndData = Hex.ofBytes returned ∧
    returned.take 84 = op.paymasterAndData.take 84 ∧ returned.drop 84 = signature.bytes
  preVerificationGas : Quantity.ofText result.preVerificationGas = .ok op.preVerificationGas
  verificationGasLimit :
    Quantity.ofText result.verificationGasLimit = .ok op.verificationGasLimit
  callGasLimit : Quantity.ofText result.callGasLimit = .ok op.callGasLimit

/-- A commit that charges the record of a key and changes nothing else. -/
structure Charges (save : Event) (key : Text) (old : Account) (cost : Nat) : Prop where
  found : save.found.account? key = some old
  enabled : old.enabled = true
  enough : cost ≤ old.remainingGas
  left : save.left.account? key = some
    { old with
      usedGas := old.usedGas + cost
      remainingGas := old.remainingGas - cost
      version := old.version + 1 }
  others : ∀ address, address ≠ key → save.left.row? address = save.found.row? address

/-- What the call of a sponsorship did in a run: one commit, and the hash and the signature
after it. -/
structure Sponsored (engine : Engine) (raw : Json) (result : Sponsorship) (call : Nat)
    (events : List Event) : Prop where
  steps : ∃ op before save after source old now range data answer n signature,
    UserOperation.read raw = .ok op ∧ events = before ++ save :: after ∧ save.call = call ∧
    Event.history call before
      = opened source (senderKey op) ++ [⟨.findAccount (senderKey op), .ok (some old)⟩] ∧
    Charges save (senderKey op) old
      ((engine.limits.preVerification + engine.limits.verification + engine.limits.call)
        * op.maxFeePerGas) ∧
    (∀ f ∈ before ++ after, f.call = call → f.commit? = none) ∧
    Event.history call after
      = [⟨.leaveLock source (senderKey op), ()⟩, ⟨.clock, now⟩,
         ⟨.callContract engine.client.paymaster data, answer⟩,
         ⟨.sign engine.client.signer (Bytes.word n), some signature⟩] ∧
    (range.validUntil : Int) = now.unixSeconds + 86400 ∧
    (range.validAfter : Int) = now.unixSeconds ∧
    Abi.HashCall.data?
      ⟨signedOperation engine.client.paymaster op engine.limits range, range.validUntil,
        range.validAfter⟩ = some data ∧
    told answer = some n ∧
    Returned (signedOperation engine.client.paymaster op engine.limits range) signature result

variable {engine : Engine}

theorem returned_ofData (op : UserOperation) (limits : GasLimits) (paymaster : Address)
    (range : TimeRange) (signature : Signature) :
    Returned (signedOperation paymaster op limits range) signature
      (.ofData (paymasterData paymaster range signature) limits) := by
  have front : (paymaster.bytes ++ range.encode).length = 84 := by
    simp [TimeRange.encode, paymaster.size]
  refine ⟨⟨_, rfl, ?_, ?_⟩, Quantity.ofText_ofNat _, Quantity.ofText_ofNat _,
    Quantity.ofText_ofNat _⟩
  · have placeholder : (signedOperation paymaster op limits range).paymasterAndData
        = paymaster.bytes ++ range.encode ++ Bytes.zeros 65 := rfl
    rw [placeholder, paymasterData, ← front, List.take_left, List.take_left]
  · rw [paymasterData, ← front, List.drop_left]

/-- A commit of a charge replaces the record of its sender by the charged one. -/
theorem Attempt.charges {raw : Json} {op : UserOperation} {found : Option Account}
    {early late : List Event} {look save : Event} {a : Account}
    (attempt : Attempt engine (.sponsor raw) found early look late save a)
    (saved : save.found.Saved a save.left) (read : UserOperation.read raw = .ok op)
    (charged : charged? found (op.cost engine.limits) = some a) :
    ∃ old, found = some old ∧ a.address = senderKey op ∧
      Charges save (senderKey op) old (op.cost engine.limits) := by
  have keyed := attempt.keyed
  rw [Call.key?, read] at keyed
  have key : a.address = senderKey op := (Option.some.inj keyed).symm
  obtain ⟨old, rfl, enabled, enough, same⟩ := charged?_eq_some charged
  have stood := attempt.account?_found saved
  have stands := saved.account? attempt.isKey
  refine ⟨old, rfl, key, ⟨?_, enabled, enough, ?_, fun address other => ?_⟩⟩
  · rw [← key]
    exact stood
  · rw [← key, stands, same]
  · exact saved.others address (by rw [key]; exact other)

/-- The call of a sponsorship charged it first, and signed what it had charged. -/
theorem sponsored_of_run {calls : List (Engine × Call)} {accounts : AccountTable}
    {s : Traffic (Except Failure Reply)} {events : List Event}
    (run : (traffic calls accounts).Run events s) {i : Nat} {raw : Json}
    (named : calls[i]? = some (engine, .sponsor raw)) {result : Sponsorship}
    (done : s.programs[i]? = some (.done (.ok (.authorized result)))) :
    Sponsored engine raw result i events := by
  have completes := run.ended (started_traffic named) (follows_serve engine _) done
  obtain ⟨op, source, found, a, b, signing, read, charged, authorized, told⟩ :=
    Completes.of_authorized completes
  have split : Event.history i events
      = (opened source (senderKey op) ++ [⟨.findAccount (senderKey op), .ok found⟩])
        ++ ⟨.saveAccount a, .ok b⟩ :: (⟨.leaveLock source (senderKey op), ()⟩ :: signing) := by
    rw [told, held]
    simp
  obtain ⟨before, save, after, rfl, rfl, exchanged, opening, rest⟩ := Event.of_history split
  have saves : save.exchange.request = .saveAccount a := by rw [exchanged]
  obtain ⟨s₁, s₂, -, step, -⟩ := run.at
  have done := step.tables.2.2
  rw [exchanged] at done
  have saved := (AccountTable.saved_of_save done.saveAccount).1
  obtain ⟨engine', call, found', early, look, late, named', rfl, attempt⟩ :=
    attempt_of_run run saves
  rw [named] at named'
  cases named'
  -- The look-up of the attempt is the one that the history tells.
  have looked : look.exchange ∈ Event.history save.call (early ++ look :: late) :=
    List.mem_map_of_mem (List.mem_filter.mpr ⟨by simp, by simpa using attempt.own⟩)
  rw [opening, attempt.asked] at looked
  have same : found' = found := by
    rw [List.mem_append, mem_opened, List.mem_singleton] at looked
    rcases looked with (joined | entered) | found
    · cases joined
    · cases entered
    · exact (Exchange.findAccount_inj found).2
  subst same
  obtain ⟨old, rfl, key, charges⟩ := attempt.charges saved read charged
  cases authorized with
  | @signed now range data answer n signature within fits number =>
    obtain ⟨lastly, first⟩ := of_rangeAt within
    exact ⟨op, _, save, after, source, old, now, range, data, answer, n, signature, read, rfl,
      rfl, opening, charges, only_of_run run saves, rest, lastly, first, fits, number,
      returned_ofData op engine.limits engine.client.paymaster range signature⟩

/-- The sponsorship with which a call has ended. -/
def sponsorship? (s : Traffic (Except Failure Reply)) (call : Nat) : Option Sponsorship :=
  match s.programs[call]? with
  | some (.done (.ok (.authorized result))) => some result
  | _ => none

theorem done_of_sponsorship? {s : Traffic (Except Failure Reply)} {call : Nat}
    {result : Sponsorship} (given : sponsorship? s call = some result) :
    s.programs[call]? = some (.done (.ok (.authorized result))) := by
  unfold sponsorship? at given
  split at given
  · cases given
    assumption
  · cases given

/-- An operation of an account with an allowance of 100 that costs 12. -/
theorem sponsored_of_run_zero_address :
    let raw : Json := .object
      [("sender", .text Address.zero.lower), ("nonce", .int 0), ("callData", .text "0x"),
       ("maxFeePerGas", .int 2), ("maxPriorityFeePerGas", .int 1)]
    let row : Row :=
      { address := Address.zero.lower, enabled := true, remainingGas := "100", usedGas := "0",
        lastRequest := none, vipToken := "-1", version := 1 }
    let turn : Traffic.Turn :=
      { call := 0, now := 1714564800000000, node := .ok (Bytes.zeros 32),
        signature := some .empty }
    let run := (traffic [(small none, .sponsor raw)] [row]).play (List.replicate 8 turn)
    ∃ result, sponsorship? run.2 0 = some result ∧
      Sponsored (small none) raw result 0 run.1 := by
  intro raw row turn run
  have given : (sponsorship? run.2 0).isSome = true := by decide +kernel
  obtain ⟨result, given⟩ := Option.isSome_iff_exists.mp given
  exact ⟨result, given, sponsored_of_run (Traffic.run_play _ _) rfl (done_of_sponsorship? given)⟩

end Engine

end Paymaster

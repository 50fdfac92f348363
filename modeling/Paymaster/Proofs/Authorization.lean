import Mathlib.Algebra.Group.Int.Defs
import Paymaster.Authorization
import Paymaster.Proofs.Number.Hexadecimal
import Paymaster.Proofs.Text.LetterCase

/-!
# The layout of authorizations

The data of an authorization is laid out for every spelling of an address exactly if both times
have 48 bits and the signature has 65 bytes (`Authorization.layOut_eq_ok_iff`). Each part stands
at its own place and is read back from there (`Authorization.Parts.ofBytes_paymasterData`). So
nothing is lost: data is the same exactly if all its parts are, and another signature changes
nothing but the last 65 bytes (`Authorization.lossless`).
-/

namespace Paymaster

/-! ## Time ranges -/

theorem TimeRange.ofInts_eq_ok_iff {validUntil validAfter : Int} {range : TimeRange} :
    ofInts validUntil validAfter = .ok range ↔
      (range.validUntil : Int) = validUntil ∧ (range.validAfter : Int) = validAfter := by
  constructor
  · intro made
    unfold ofInts at made
    split at made
    · rename_i u
      split at made
      · rename_i a
        cases made
        exact ⟨Int.toNat_of_nonneg u.1, Int.toNat_of_nonneg a.1⟩
      · cases made
    · cases made
  · rintro ⟨rfl, rfl⟩
    have u := range.until_lt
    have a := range.after_lt
    rw [ofInts, dif_pos (by omega), dif_pos (by omega)]
    rfl

/-- There is a range between two numbers exactly if they have 48 bits. -/
theorem TimeRange.exists_iff {validUntil validAfter : Int} :
    (∃ range : TimeRange,
      (range.validUntil : Int) = validUntil ∧ (range.validAfter : Int) = validAfter) ↔
      (0 ≤ validUntil ∧ validUntil < 2 ^ 48) ∧ 0 ≤ validAfter ∧ validAfter < 2 ^ 48 := by
  have bound : (Abi.timeBound : Int) = 2 ^ 48 := by decide
  rw [← bound]
  constructor
  · rintro ⟨range, rfl, rfl⟩
    have u := range.until_lt
    have a := range.after_lt
    omega
  · rintro ⟨u, a⟩
    exact ⟨⟨validUntil.toNat, validAfter.toNat, by omega, by omega⟩,
      Int.toNat_of_nonneg u.1, Int.toNat_of_nonneg a.1⟩

/-- The times of a range are words. -/
theorem TimeRange.toNat_word (range : TimeRange) :
    Bytes.toNat (Bytes.word range.validUntil) = range.validUntil ∧
      Bytes.toNat (Bytes.word range.validAfter) = range.validAfter := by
  have small : Abi.timeBound < 256 ^ 32 := by decide
  exact ⟨Bytes.toNat_ofNat 32 _ (Nat.lt_trans range.until_lt small),
    Bytes.toNat_ofNat 32 _ (Nat.lt_trans range.after_lt small)⟩

namespace Authorization

/-! ## Parts -/

/-- What the data of an operation holds: 20 bytes, two numbers and a signature. -/
structure Parts where
  paymaster : Bytes
  validUntil : Nat
  validAfter : Nat
  signature : Bytes
  deriving DecidableEq, Repr

/-- The parts of data at their places, the numbers as words. -/
def Parts.ofBytes (data : Bytes) : Parts where
  paymaster := data.take 20
  validUntil := Bytes.toNat ((data.drop 20).take 32)
  validAfter := Bytes.toNat ((data.drop 52).take 32)
  signature := data.drop 84

/-- Bytes behind others are read from their place. -/
theorem take_drop_of_length {front part : Bytes} {start size : Nat} (before : front.length = start)
    (sized : part.length = size) (rest : Bytes) :
    ((front ++ (part ++ rest)).drop start).take size = part := by
  subst before sized
  rw [List.drop_left, List.take_left]

/-- The parts of laid out data are those that it was made of. -/
theorem Parts.ofBytes_paymasterData (paymaster : Address) (range : TimeRange)
    (signature : Signature) :
    ofBytes (paymasterData paymaster range signature)
      = ⟨paymaster.bytes, range.validUntil, range.validAfter, signature.bytes⟩ := by
  obtain ⟨u, a⟩ := range.toNat_word
  have first := paymaster.size
  have second : (paymaster.bytes ++ Bytes.word range.validUntil).length = 52 := by simp [first]
  have third : (paymaster.bytes ++ range.encode).length = 84 := by
    simp [TimeRange.encode, first]
  have until' := take_drop_of_length first (Bytes.length_word range.validUntil)
    (Bytes.word range.validAfter ++ signature.bytes)
  have after' := take_drop_of_length second (Bytes.length_word range.validAfter) signature.bytes
  rw [ofBytes, Parts.mk.injEq]
  refine ⟨?_, ?_, ?_, ?_⟩
  · rw [paymasterData, List.append_assoc, ← first, List.take_left]
  · rw [← u, ← until', paymasterData, TimeRange.encode]
    simp only [List.append_assoc]
  · rw [← a, ← after', paymasterData, TimeRange.encode]
    simp only [List.append_assoc]
  · rw [paymasterData, ← third, List.drop_left]

/-- Data is laid out from the spellings of an address, two times and a signature. -/
theorem layOut_eq_ok_iff {t : Text} {validUntil validAfter : Int} {signature data : Bytes} :
    layOut t validUntil validAfter signature = .ok data ↔
      ∃ (paymaster : Address) (range : TimeRange) (size : signature.length = 65),
        paymaster.Spells t ∧
        ((range.validUntil : Int) = validUntil ∧ (range.validAfter : Int) = validAfter) ∧
        data = paymasterData paymaster range ⟨signature, size⟩ := by
  simp only [Address.spells_iff, ← TimeRange.ofInts_eq_ok_iff]
  constructor
  · intro made
    unfold layOut Signature.ofBytes? at made
    by_cases size : signature.length = 65
    · rw [dif_pos size] at made
      cases denotes : Address.ofText? t with
      | none =>
        simp only [Address.read, denotes] at made
        split at made <;> rename_i fails <;> split at fails <;> cases fails <;> cases made
      | some paymaster =>
        simp only [Address.read, denotes] at made
        cases timed : TimeRange.ofInts validUntil validAfter with
        | error value =>
          rw [timed] at made
          cases made
        | ok range =>
          rw [timed] at made
          cases made
          exact ⟨paymaster, range, size, rfl, rfl, rfl⟩
    · rw [dif_neg size] at made
      cases made
  · rintro ⟨paymaster, range, size, denotes, timed, rfl⟩
    rw [layOut, Signature.ofBytes?, dif_pos size, Address.read, denotes]
    simp only [timed]

/-- What the data holds that was laid out from a spelling of an address. -/
theorem parts_of_layOut {paymaster : Address} {t : Text} {validUntil validAfter : Int}
    {signature data : Bytes} (spells : paymaster.Spells t)
    (made : layOut t validUntil validAfter signature = .ok data) :
    data.length = 149 ∧ ∃ range : TimeRange,
      ((range.validUntil : Int) = validUntil ∧ (range.validAfter : Int) = validAfter) ∧
      Parts.ofBytes data = ⟨paymaster.bytes, range.validUntil, range.validAfter, signature⟩ := by
  obtain ⟨paymaster', range, size, spells', timed, rfl⟩ := layOut_eq_ok_iff.mp made
  have same : paymaster' = paymaster := by
    rw [Address.spells_iff] at spells spells'
    exact Option.some.inj (spells'.symm.trans spells)
  subst same
  exact ⟨length_paymasterData .., range, timed, Parts.ofBytes_paymasterData ..⟩

/-- It does not matter how an address is spelled. -/
theorem layOut_of_spells {paymaster : Address} {t t' : Text} (spells : paymaster.Spells t)
    (spells' : paymaster.Spells t') : layOut t = layOut t' := by
  rw [Address.spells_iff] at spells spells'
  funext validUntil validAfter signature
  rw [layOut, layOut, Address.read, Address.read, spells, spells']

/-! ## Nothing is lost -/

theorem exists_layOut_iff {paymaster : Address} {t : Text} (spells : paymaster.Spells t)
    {validUntil validAfter : Int} {signature : Bytes} :
    (∃ data, layOut t validUntil validAfter signature = .ok data) ↔
      ((0 ≤ validUntil ∧ validUntil < 2 ^ 48) ∧ 0 ≤ validAfter ∧ validAfter < 2 ^ 48) ∧
        signature.length = 65 := by
  rw [← TimeRange.exists_iff]
  constructor
  · rintro ⟨data, made⟩
    obtain ⟨-, range, size, -, timed, -⟩ := layOut_eq_ok_iff.mp made
    exact ⟨⟨range, timed⟩, size⟩
  · rintro ⟨⟨range, timed⟩, size⟩
    exact ⟨_, layOut_eq_ok_iff.mpr ⟨paymaster, range, size, spells, timed, rfl⟩⟩

/-- Data is the same exactly if it was laid out from the same address, times and signature. -/
theorem layOut_inj {paymaster paymaster' : Address} {t t' : Text}
    {validUntil validUntil' validAfter validAfter' : Int} {signature signature' data data' : Bytes}
    (spells : paymaster.Spells t) (spells' : paymaster'.Spells t')
    (made : layOut t validUntil validAfter signature = .ok data)
    (made' : layOut t' validUntil' validAfter' signature' = .ok data') :
    data = data' ↔ paymaster = paymaster' ∧ validUntil = validUntil' ∧
      validAfter = validAfter' ∧ signature = signature' := by
  constructor
  · intro same
    obtain ⟨-, range, ⟨u, a⟩, parts⟩ := parts_of_layOut spells made
    obtain ⟨-, range', ⟨u', a'⟩, parts'⟩ := parts_of_layOut spells' made'
    rw [same, parts', Parts.mk.injEq] at parts
    obtain ⟨first, second, third, last⟩ := parts
    have address : paymaster = paymaster' := by
      cases paymaster
      cases paymaster'
      cases first
      rfl
    exact ⟨address, by rw [← u, ← u', second], by rw [← a, ← a', third], last.symm⟩
  · rintro ⟨rfl, rfl, rfl, rfl⟩
    rw [layOut_of_spells spells spells', made'] at made
    cases made
    rfl

/-- Another signature changes the end of the data only. -/
theorem layOut_resigned {t : Text} {validUntil validAfter : Int}
    {signature signature' data data' : Bytes}
    (made : layOut t validUntil validAfter signature = .ok data)
    (made' : layOut t validUntil validAfter signature' = .ok data') :
    data' = data.take 84 ++ signature' := by
  obtain ⟨paymaster, range, size, spells, timed, rfl⟩ := layOut_eq_ok_iff.mp made
  obtain ⟨-, -, size', -⟩ := layOut_eq_ok_iff.mp made'
  rw [layOut_eq_ok_iff.mpr ⟨paymaster, range, size', spells, timed, rfl⟩] at made'
  cases made'
  have front : (paymaster.bytes ++ range.encode).length = 84 := by
    simp [TimeRange.encode, paymaster.size]
  rw [paymasterData, paymasterData, ← front, List.take_left]

/-- The layout of an authorization loses nothing. A spelling of an address, two times and a
signature are laid out exactly if the times have 48 bits and the signature has 65 bytes, and all
four are read back from their places. So data is the same exactly if they are, and another
signature changes the last 65 bytes only. -/
theorem lossless :
    (∀ (paymaster : Address) (t : Text), paymaster.Spells t →
      ∀ (validUntil validAfter : Int) (signature : Bytes),
        ((∃ data, layOut t validUntil validAfter signature = .ok data) ↔
          ((0 ≤ validUntil ∧ validUntil < 2 ^ 48) ∧ 0 ≤ validAfter ∧ validAfter < 2 ^ 48) ∧
            signature.length = 65) ∧
        ∀ data, layOut t validUntil validAfter signature = .ok data →
          data.length = 149 ∧ data.take 20 = paymaster.bytes ∧
          (Bytes.toNat ((data.drop 20).take 32) : Int) = validUntil ∧
          (Bytes.toNat ((data.drop 52).take 32) : Int) = validAfter ∧
          data.drop 84 = signature) ∧
    (∀ (paymaster paymaster' : Address) (t t' : Text) (validUntil validUntil' validAfter
        validAfter' : Int) (signature signature' data data' : Bytes),
      paymaster.Spells t → paymaster'.Spells t' →
      layOut t validUntil validAfter signature = .ok data →
      layOut t' validUntil' validAfter' signature' = .ok data' →
        (data = data' ↔ paymaster = paymaster' ∧ validUntil = validUntil' ∧
          validAfter = validAfter' ∧ signature = signature')) ∧
    ∀ (t : Text) (validUntil validAfter : Int) (signature signature' data data' : Bytes),
      layOut t validUntil validAfter signature = .ok data →
      layOut t validUntil validAfter signature' = .ok data' →
        data' = data.take 84 ++ signature' := by
  refine ⟨fun paymaster t spells validUntil validAfter signature =>
    ⟨exists_layOut_iff spells, fun data made => ?_⟩,
    fun _ _ _ _ _ _ _ _ _ _ _ _ => layOut_inj, fun _ _ _ _ _ _ _ => layOut_resigned⟩
  obtain ⟨length, range, ⟨u, a⟩, parts⟩ := parts_of_layOut spells made
  rw [Parts.ofBytes, Parts.mk.injEq] at parts
  obtain ⟨first, second, third, last⟩ := parts
  exact ⟨length, first, by rw [second, u], by rw [third, a], last⟩

/-- The latest end and the earliest start are laid out and read back, with an address in both
letter cases. -/
theorem lossless_widest :
    let paymaster : Address := ⟨List.replicate 20 0xAB, by decide⟩
    let t : Text := "0XABababababababababababababababababababab"
    let signature : Bytes := List.replicate 65 7
    paymaster.Spells t ∧ ∃ data, layOut t (2 ^ 48 - 1) 0 signature = .ok data ∧
      data.length = 149 ∧ data.take 20 = paymaster.bytes ∧
      (Bytes.toNat ((data.drop 20).take 32) : Int) = 2 ^ 48 - 1 ∧
      (Bytes.toNat ((data.drop 52).take 32) : Int) = 0 ∧ data.drop 84 = signature := by
  intro paymaster t signature
  have spells : paymaster.Spells t := ⟨true, by decide⟩
  obtain ⟨laidOut, places⟩ := lossless.1 paymaster t spells (2 ^ 48 - 1) 0 signature
  obtain ⟨data, made⟩ := laidOut.mpr (by decide)
  exact ⟨spells, data, made, places data made⟩

end Authorization

end Paymaster

import Mathlib.Algebra.Ring.Nat
import Paymaster.Number.Integer

/-!
# Written integers are read back

The digits of a number denote the number (`Digits.value_ofNat`), there are no more of them
than its size asks for (`Digits.length_ofNat_le`), and a run of digits is read as those
digits (`Integer.digitRun_ofDigits`). Together: an integer that is written at all is read
back from its written form (`Integer.read_of_write?`).
-/

namespace Paymaster

/-! ## One digit -/

theorem CodePoint.hexValue?_ofDigit {d : Nat} (small : d < 16) :
    (CodePoint.ofDigit d).hexValue? = some d := by
  have table : ∀ d : Fin 16, (CodePoint.ofDigit d.val).hexValue? = some d.val := by decide
  exact table ⟨d, small⟩

theorem CodePoint.isAscii_ofDigit {d : Nat} (small : d < 16) :
    (CodePoint.ofDigit d).isAscii = true := by
  have table : ∀ d : Fin 16, (CodePoint.ofDigit d.val).isAscii = true := by decide
  exact table ⟨d, small⟩

/-- A digit is neither a blank nor a sign. -/
theorem CodePoint.ofDigit_plain {d : Nat} (small : d < 16) :
    (CodePoint.ofDigit d).isAsciiBlank = false ∧ CodePoint.ofDigit d ≠ '-' ∧
      CodePoint.ofDigit d ≠ '+' ∧ CodePoint.ofDigit d ≠ '_' := by
  have table : ∀ d : Fin 16, (CodePoint.ofDigit d.val).isAsciiBlank = false ∧
      CodePoint.ofDigit d.val ≠ '-' ∧ CodePoint.ofDigit d.val ≠ '+' ∧
      CodePoint.ofDigit d.val ≠ '_' := by decide
  exact table ⟨d, small⟩

namespace Digits

/-! ## The digits of a number -/

/-- Collected digits continue the number they were split off from. -/
theorem foldl_collect {base : Nat} (fuel : Nat) :
    ∀ (n : Nat) (found : List Nat), n < base ^ fuel →
      (collect base fuel n found).foldl (fun n d => n * base + d) 0
        = found.foldl (fun n d => n * base + d) n := by
  induction fuel with
  | zero =>
    intro n found bound
    have zero : n = 0 := by simpa using bound
    simp [collect, zero]
  | succ fuel ih =>
    intro n found bound
    unfold collect
    split
    · simp
    · have smaller : n / base < base ^ fuel := by
        apply Nat.div_lt_of_lt_mul
        rwa [Nat.mul_comm, ← Nat.pow_succ]
      rw [ih _ _ smaller, List.foldl_cons, Nat.div_add_mod']

theorem lt_pow_log2 {base : Nat} (two_le : 2 ≤ base) (n : Nat) : n < base ^ (n.log2 + 1) :=
  Nat.lt_of_lt_of_le Nat.lt_log2_self (Nat.pow_le_pow_left two_le _)

/-- The digits of a number denote the number. -/
theorem value_ofNat {base : Nat} (two_le : 2 ≤ base) (n : Nat) :
    value base (ofNat base n) = n := by
  rw [value, ofNat, foldl_collect _ _ _ (lt_pow_log2 two_le n)]
  rfl

theorem lt_of_mem_collect {base : Nat} (two_le : 2 ≤ base) (fuel : Nat) :
    ∀ (n : Nat) (found : List Nat), (∀ d ∈ found, d < base) →
      ∀ d ∈ collect base fuel n found, d < base := by
  induction fuel with
  | zero => intro n found small; exact small
  | succ fuel ih =>
    intro n found small
    unfold collect
    split
    · rename_i digit
      intro d member
      rcases List.mem_cons.mp member with rfl | member
      · exact digit
      · exact small d member
    · apply ih
      intro d member
      rcases List.mem_cons.mp member with rfl | member
      · exact Nat.mod_lt _ (by omega)
      · exact small d member

theorem lt_of_mem_ofNat {base n : Nat} (two_le : 2 ≤ base) :
    ∀ d ∈ ofNat base n, d < base :=
  lt_of_mem_collect two_le _ _ _ (by simp)

/-- Digits are told from their code points. -/
theorem eq_of_map_ofDigit {ds es : List Nat} (small : ∀ d ∈ ds, d < 16) (small' : ∀ d ∈ es, d < 16)
    (same : ds.map CodePoint.ofDigit = es.map CodePoint.ofDigit) : ds = es := by
  have read {ds : List Nat} (small : ∀ d ∈ ds, d < 16) :
      (ds.map CodePoint.ofDigit).map (fun c => c.hexValue?.getD 0) = ds := by
    rw [List.map_map]
    refine (List.map_congr_left fun d member => ?_).trans (List.map_id ds)
    simp [CodePoint.hexValue?_ofDigit (small d member)]
  rw [← read small, ← read small', same]

theorem decimal_inj {n k : Nat} (same : decimal n = decimal k) : n = k := by
  have small (n : Nat) : ∀ d ∈ ofNat 10 n, d < 16 :=
    fun d member => Nat.lt_trans (lt_of_mem_ofNat (by omega) d member) (by omega)
  rw [← value_ofNat (show 2 ≤ 10 by omega) n, ← value_ofNat (show 2 ≤ 10 by omega) k,
    eq_of_map_ofDigit (small n) (small k) same]

theorem collect_ne_nil {base n : Nat} (fuel : Nat) {found : List Nat} :
    collect base (fuel + 1) n found ≠ [] := by
  induction fuel generalizing n found with
  | zero =>
    unfold collect
    split <;> simp [collect]
  | succ fuel ih =>
    unfold collect
    split
    · simp
    · exact ih

theorem ofNat_ne_nil {base n : Nat} : ofNat base n ≠ [] :=
  collect_ne_nil _

/-- Different integers have different decimal forms, however long they are. -/
theorem signedDecimal_inj {n k : Int} (same : signedDecimal n = signedDecimal k) : n = k := by
  have unsigned (n : Nat) (t : Text) : decimal n ≠ ('-' :: t : Text) := by
    intro signed
    have nonempty : ofNat 10 n ≠ [] := ofNat_ne_nil
    obtain ⟨d, rest, digits⟩ := List.exists_cons_of_ne_nil nonempty
    have small := lt_of_mem_ofNat (show 2 ≤ 10 by omega) d (digits ▸ List.mem_cons_self)
    rw [decimal, text, digits] at signed
    exact (CodePoint.ofDigit_plain (Nat.lt_trans small (by omega))).2.1 (List.cons.inj signed).1
  cases n with
  | ofNat n =>
    cases k with
    | ofNat k => rw [decimal_inj same]
    | negSucc k => exact absurd same (unsigned n _)
  | negSucc n =>
    cases k with
    | ofNat k => exact absurd same.symm (unsigned k _)
    | negSucc k => rw [Nat.succ.inj (decimal_inj (List.cons.inj same).2)]

theorem length_collect_le {base : Nat} (fuel : Nat) :
    ∀ (n places : Nat) (found : List Nat), n < base ^ (places + 1) →
      (collect base fuel n found).length ≤ places + 1 + found.length := by
  induction fuel with
  | zero => intro n places found _; simp [collect]
  | succ fuel ih =>
    intro n places found bound
    unfold collect
    split
    · rw [List.length_cons]
      omega
    · rename_i large
      cases places with
      | zero => exact absurd (by simpa using bound) large
      | succ places =>
        have smaller : n / base < base ^ (places + 1) := by
          apply Nat.div_lt_of_lt_mul
          rwa [Nat.mul_comm, ← Nat.pow_succ]
        have := ih (n / base) places (n % base :: found) smaller
        simp only [List.length_cons] at this
        omega

/-- A number has no more digits than its size asks for. -/
theorem length_ofNat_le {base n places : Nat} (pos : 0 < places)
    (bound : n < Nat.pow base places) : (ofNat base n).length ≤ places := by
  obtain ⟨less, rfl⟩ := Nat.exists_eq_succ_of_ne_zero (Nat.ne_of_gt pos)
  exact length_collect_le _ n less [] bound

end Digits

namespace Integer

/-! ## Reading -/

theorem plain_of_isAscii {t : Text} (ascii : t.isAscii = true) : plain t = t := by
  simp [plain, ascii]

theorem isAscii_digits {ds : List Nat} (small : ∀ d ∈ ds, d < 16) :
    (ds.map CodePoint.ofDigit).all CodePoint.isAscii = true := by
  rw [List.all_map, List.all_eq_true]
  intro d member
  exact CodePoint.isAscii_ofDigit (small d member)

/-- A run of digits is read as those digits, and nothing is left. -/
theorem digitRun_ofDigits {base : Nat} (le : base ≤ 16) (ds : List Nat) :
    ∀ fresh : Bool, (fresh = true → ds ≠ []) → (∀ d ∈ ds, d < base) →
      digitRun base fresh (ds.map CodePoint.ofDigit) = some (ds, []) := by
  induction ds with
  | nil =>
    intro fresh nonempty _
    cases fresh with
    | true => exact absurd rfl (nonempty rfl)
    | false => rfl
  | cons d rest ih =>
    intro fresh _ small
    have here : digit? base (CodePoint.ofDigit d) = some d := by
      have bound : d < base := small d (by simp)
      simp [digit?, CodePoint.hexValue?_ofDigit (by omega : d < 16), bound]
    have there := ih false (by simp) fun d member => small d (by simp [member])
    simp [digitRun, here, there]

/-- A text with digits behind its sign and mark is read as the number they denote. -/
theorem read_of_parts {base : Nat} {t body : Text} {ds : List Nat} {negative : Bool}
    (le : base ≤ 16) (nonempty : ds ≠ []) (small : ∀ d ∈ ds, d < base)
    (short : base = 10 → ds.length ≤ digitLimit)
    (signed : sign ((plain t).dropWhile CodePoint.isAsciiBlank) = (negative, body))
    (marked : afterBaseMark base body = ds.map CodePoint.ofDigit) :
    read base t
      = .ok (if negative then -(Digits.value base ds : Int) else Digits.value base ds) := by
  have run := digitRun_ofDigits le ds true (fun _ => nonempty) small
  have fits : ¬(base = 10 ∧ digitLimit < ds.length) := by
    intro given
    rcases given with ⟨ten, long⟩
    exact Nat.not_lt.mpr (short ten) long
  unfold read
  rw [signed]
  simp only [marked, run, if_neg fits, List.dropWhile_nil, List.isEmpty_nil, if_true]

/-- What stands behind blanks and a sign, if digits stand in front. -/
theorem sign_digits {ds : List Nat} (nonempty : ds ≠ []) (small : ∀ d ∈ ds, d < 16) :
    sign ((plain (ds.map CodePoint.ofDigit)).dropWhile CodePoint.isAsciiBlank)
      = (false, ds.map CodePoint.ofDigit) := by
  rw [plain_of_isAscii (isAscii_digits small)]
  obtain ⟨d, rest, rfl⟩ := List.exists_cons_of_ne_nil nonempty
  obtain ⟨notBlank, notMinus, notPlus, -⟩ := CodePoint.ofDigit_plain (small d (by simp))
  simp [sign, notBlank, notMinus, notPlus]

/-- What stands behind a minus sign in front of digits. -/
theorem sign_minus_digits {ds : List Nat} (small : ∀ d ∈ ds, d < 16) :
    sign ((plain ('-' :: ds.map CodePoint.ofDigit)).dropWhile CodePoint.isAsciiBlank)
      = (true, ds.map CodePoint.ofDigit) := by
  have dash : CodePoint.isAscii '-' = true ∧ CodePoint.isAsciiBlank '-' = false := by decide
  have ascii : Text.isAscii ('-' :: ds.map CodePoint.ofDigit) = true := by
    rw [Text.isAscii, List.all_cons, dash.1, isAscii_digits small]
    rfl
  rw [plain_of_isAscii ascii, List.dropWhile_cons_of_neg (by simp [dash.2])]
  simp [sign]

/-- The decimal form of a number is read back. -/
theorem read_signedDecimal {n : Int} (bound : n.natAbs < Nat.pow 10 digitLimit) :
    read 10 (Digits.signedDecimal n) = .ok n := by
  have short (m : Nat) (bound : m < Nat.pow 10 digitLimit) :
      (Digits.ofNat 10 m).length ≤ digitLimit := by
    have pos : 0 < digitLimit := by decide
    -- a limit without a value keeps its power from being computed
    generalize digitLimit = limit at pos bound ⊢
    exact Digits.length_ofNat_le pos bound
  have small (m : Nat) : ∀ d ∈ Digits.ofNat 10 m, d < 10 := Digits.lt_of_mem_ofNat (by omega)
  have small' (m : Nat) : ∀ d ∈ Digits.ofNat 10 m, d < 16 :=
    fun d member => Nat.lt_trans (small m d member) (by omega)
  cases n with
  | ofNat n =>
    have signed := sign_digits Digits.ofNat_ne_nil (small' n)
    have read := read_of_parts (by omega) Digits.ofNat_ne_nil (small n) (fun _ => short n bound)
      signed rfl
    rw [Digits.value_ofNat (by omega)] at read
    exact read
  | negSucc n =>
    have signed := sign_minus_digits (small' (n + 1))
    have read := read_of_parts (by omega) Digits.ofNat_ne_nil (small (n + 1))
      (fun _ => short (n + 1) bound) signed rfl
    rw [Digits.value_ofNat (by omega)] at read
    exact read

/-- An integer that is written at all is read back from its written form. -/
theorem read_of_write? {n : Int} {t : Text} (written : write? n = some t) :
    read 10 t = .ok n := by
  unfold write? at written
  split at written
  case isTrue bound =>
    cases written
    exact read_signedDecimal bound
  case isFalse => cases written

/-- Different integers have different written forms. -/
theorem write?_inj {n k : Int} {t : Text} (written : write? n = some t)
    (written' : write? k = some t) : n = k :=
  Except.ok.inj ((read_of_write? written).symm.trans (read_of_write? written'))

end Integer

end Paymaster

import Paymaster.Proofs.Ledger.Commits
import Paymaster.Proofs.Ledger.Holders

/-!
# Grants through a token

A token has no record of its own: the accounts that are linked to it tell when it was last
used, and each grant moves the link of its account. So a grant sees an earlier one only if that
was saved before it looked, and the link was not moved in between (`Engine.Sees`). Two grants
of which one saw the other are a window apart (`Engine.apart_of_sees`), and a run keeps to one
grant per token and window exactly if the grants that did not see each other do
(`Engine.paysOnce_iff`).
-/

namespace Paymaster

/-! ## What exchanges told -/

namespace Exchange

/-- The time that the clock showed. -/
def reading? : Exchange → Option Instant
  | ⟨.clock, now⟩ => some now
  | _ => none

/-- The number that the node told. -/
def number? : Exchange → Option Nat
  | ⟨.callContract _ _, answer⟩ => Engine.told answer
  | _ => none

end Exchange

/-- The clock never goes back. -/
def Steady (events : List Event) : Prop :=
  (events.filterMap fun e => e.exchange.reading?).Pairwise fun x y => x ≤ y

theorem Steady.le {before after : List Event} (steady : Steady (before ++ after)) {e f : Event}
    (first : e ∈ before) (second : f ∈ after) {x y : Int} (told : e.exchange.reading? = some x)
    (told' : f.exchange.reading? = some y) : x ≤ y := by
  rw [Steady, List.filterMap_append, List.pairwise_append] at steady
  exact steady.2.2 x (List.mem_filterMap.mpr ⟨e, first, told⟩) y
    (List.mem_filterMap.mpr ⟨f, second, told'⟩)

theorem Steady.left {before after : List Event} (steady : Steady (before ++ after)) :
    Steady before := by
  rw [Steady, List.filterMap_append, List.pairwise_append] at steady
  exact steady.1

namespace Engine

variable {engine : Engine} {call : Call} {token : Nat} {now : Int}

/-! ## One grant -/

theorem Reported.number {key : Text} {asked : List Exchange} {token? : Option Nat}
    (reported : Reported engine key asked token?) {x : Exchange} (member : x ∈ asked) :
    x.reading? = none ∧ (∀ n, x.request ≠ .findHolder n) ∧
      ∀ n, x.number? = some n → token? = some n := by
  cases reported with
  | unasked => cases member
  | told answer vip owner =>
    rw [List.mem_singleton] at member
    subst member
    exact ⟨rfl, fun n => Request.noConfusion, fun n => id⟩

/-- What is written was granted at a time that was read since the look-up, unless it is a
charge, which keeps the time. -/
theorem Writes.lastRequest {key : Text} {found : Option Account} {mid : List Exchange}
    {a : Account} (writes : Writes engine key found call mid a) :
    (∃ raw old, call = .sponsor raw ∧ found = some old ∧ a.lastRequest = old.lastRequest) ∨
      ∃ x ∈ mid, ∃ now, x.reading? = some now ∧ a.lastRequest = some now := by
  cases writes with
  | charge read charged =>
    obtain ⟨old, rfl, -, -, rfl⟩ := charged?_eq_some charged
    exact .inl ⟨_, old, rfl, rfl, rfl⟩
  | regular => exact .inr ⟨_, List.mem_append_right _ (List.mem_singleton_self _), _, rfl, rfl⟩
  | token => exact .inr ⟨_, List.mem_append_right _ (List.mem_cons_self), _, rfl, rfl⟩

/-- The exchanges of a grant through a token at a time. -/
structure Paid (engine : Engine) (token : Nat) (now : Int) (h : List Exchange) : Prop where
  time : ∀ x ∈ h, ∀ y, x.reading? = some y → y = now
  looks : ∀ x ∈ h, ∀ n, x.request = .findHolder n → ∃ holder? key allowance,
    x = ⟨.findHolder token, .ok holder?⟩ ∧
      tokenAllowance engine.tiers holder? key now = .ok allowance
  saves : ∀ x ∈ h, ∀ a, x.request = .saveAccount a →
    a.vipToken = token ∧ a.lastRequest = some now

theorem Writes.paid {key : Text} {found : Option Account} {address : Json}
    {mid : List Exchange} {a : Account}
    (writes : Writes engine key found (.requestGas address) mid a) {x z : Exchange}
    (told : x ∈ mid) (number : x.number? = some token) (read : z ∈ mid)
    (reading : z.reading? = some now) :
    Paid engine token now mid ∧ a.vipToken = token ∧ a.lastRequest = some now := by
  have quiet := writes.quiet
  cases writes with
  | regular reported allowed =>
    rcases List.mem_append.mp told with early | late
    · cases (reported.number early).2.2 token number
    · rw [List.mem_singleton] at late
      subst late
      cases number
  | @token _ asked token' now' holder? allowance reported enabled allowed =>
    have same : token' = token := by
      rcases List.mem_append.mp told with early | late
      · exact Option.some.inj ((reported.number early).2.2 token number)
      · simp only [List.mem_cons, List.not_mem_nil, or_false] at late
        rcases late with rfl | rfl <;> cases number
    have time {y : Exchange}
        (member : y ∈ asked ++ [⟨.clock, now'⟩, ⟨.findHolder token', .ok holder?⟩])
        {now'' : Int} (shown : y.reading? = some now'') : now'' = now' := by
      rcases List.mem_append.mp member with early | late
      · rw [(reported.number early).1] at shown
        cases shown
      · simp only [List.mem_cons, List.not_mem_nil, or_false] at late
        rcases late with rfl | rfl
        · exact (Option.some.inj shown).symm
        · cases shown
    have same' : now = now' := time read reading
    subst same same'
    refine ⟨⟨fun y member now'' => time member, ?_, ?_⟩, rfl, rfl⟩
    · intro y member n looked
      rcases List.mem_append.mp member with early | late
      · exact absurd looked ((reported.number early).2.1 n)
      · simp only [List.mem_cons, List.not_mem_nil, or_false] at late
        rcases late with rfl | rfl
        · cases looked
        · exact ⟨holder?, key, allowance, rfl, allowed⟩
    · exact fun y member b saved => absurd saved ((quiet y member).1 b)

theorem Completes.paid {h : List Exchange} (completes : Completes engine call h .granted)
    {x z : Exchange} (told : x ∈ h) (number : x.number? = some token) (read : z ∈ h)
    (reading : z.reading? = some now) :
    (∃ address, call = .requestGas address) ∧ Paid engine token now h := by
  cases completes with
  | @granted address source key found mid a b given writes =>
    -- Nothing else that is exchanged in a hold tells a number or a time.
    have parts {y : Exchange} (member : y ∈ held source key found mid a b) :
        y ∈ mid ∨ y.number? = none ∧ y.reading? = none ∧
          (∀ n, y.request ≠ .findHolder n) ∧ ∀ c, y.request = .saveAccount c → c = a := by
      refine (mem_held member).imp_right fun outside => ?_
      rcases outside with rfl | opening | rfl | rfl
      · exact ⟨rfl, rfl, nofun, fun c same => (Request.saveAccount.inj same).symm⟩
      · rcases mem_opened.mp opening with rfl | rfl
        · exact ⟨rfl, rfl, nofun, nofun⟩
        · exact ⟨rfl, rfl, nofun, nofun⟩
      · exact ⟨rfl, rfl, nofun, nofun⟩
      · exact ⟨rfl, rfl, nofun, nofun⟩
    have told' : x ∈ mid := by
      rcases parts told with inside | ⟨none, -⟩
      · exact inside
      · rw [none] at number
        cases number
    have read' : z ∈ mid := by
      rcases parts read with inside | ⟨-, none, -⟩
      · exact inside
      · rw [none] at reading
        cases reading
    obtain ⟨paid, linked, time⟩ := writes.paid told' number read' reading
    refine ⟨⟨address, rfl⟩, ?_, ?_, ?_⟩
    · intro y member now' shown
      rcases parts member with inside | ⟨-, none, -⟩
      · exact paid.time y inside now' shown
      · rw [none] at shown
        cases shown
    · intro y member n looked
      rcases parts member with inside | ⟨-, -, other, -⟩
      · exact paid.looks y inside n looked
      · exact absurd looked (other n)
    · intro y member c saved
      rcases parts member with inside | ⟨-, -, -, only⟩
      · exact paid.saves y inside c saved
      · rw [only c saved]
        exact ⟨linked, time⟩

/-! ## Grants of a run -/

/-- A call was granted an allowance at a time, and the node had reported a token for it. -/
structure Pays (events : List Event) (s : Traffic (Except Failure Reply)) (token call : Nat)
    (now : Int) : Prop where
  granted : s.programs[call]? = some (.done (.ok .granted))
  reported : ∃ x ∈ Event.history call events, x.number? = some token
  read : ∃ x ∈ Event.history call events, x.reading? = some now

/-- When a call looked for the holder of a token, another call had saved its grant, and the
link of that account had not been moved since. -/
def Sees (events : List Event) (token call other : Nat) : Prop :=
  ∃ before save mid look after a, events = before ++ save :: (mid ++ look :: after) ∧
    save.call = other ∧ save.commit? = some a ∧ look.call = call ∧
    look.exchange.request = .findHolder token ∧
    ∀ e ∈ mid, ∀ b : Account, e.commit? = some b → b.address = a.address →
      b.vipToken = token

/-- Two times between which a window lies. -/
def Apart (window : Period) (x y : Int) : Prop :=
  x + window.micros ≤ y ∨ y + window.micros ≤ x

/-- Any two grants through one token lie a window apart. -/
def PaysOnce (window : Period) (events : List Event) (s : Traffic (Except Failure Reply)) :
    Prop :=
  ∀ token i j x y, i ≠ j → Pays events s token i x → Pays events s token j y → Apart window x y

section Runs

variable {calls : List (Engine × Call)} {accounts : AccountTable}
  {s : Traffic (Except Failure Reply)} {events before after : List Event} {e : Event}

theorem Pays.paid {i : Nat} (pays : Pays events s token i now)
    (run : (traffic calls accounts).Run events s) :
    ∃ engine address, calls[i]? = some (engine, .requestGas address) ∧
      Paid engine token now (Event.history i events) := by
  obtain ⟨engine, call, named⟩ := named_of_run run pays.granted
  obtain ⟨x, told, number⟩ := pays.reported
  obtain ⟨z, read, reading⟩ := pays.read
  have completes := run.ended (started_traffic named) (follows_serve engine call) pays.granted
  obtain ⟨⟨address, rfl⟩, paid⟩ := Completes.paid completes told number read reading
  exact ⟨engine, address, named, paid⟩

/-- After a grant its account has no earlier time: a charge keeps the time that it found, and
another grant reads the clock later. -/
theorem granted_since {mid : List Event} {a : Account} {x : Int}
    (run : (traffic calls accounts).Run (before ++ e :: mid) s)
    (steady : Steady (before ++ e :: mid)) (wrote : e.commit? = some a)
    (time : a.lastRequest = some x) (read : ∃ f ∈ before, f.exchange.reading? = some x) :
    ∃ r, s.accounts.row? a.address = some r ∧ ∃ y : Int, r.lastRequest = some y ∧ x ≤ y := by
  obtain ⟨s₁, s₂, -, step, rest⟩ := run.at
  have saved := saved_of_commit run wrote
  refine rest.row_kept ?_ ?_
  · obtain ⟨row, made, stands⟩ := saved.row
    obtain ⟨-, -, -, -, last, -⟩ := Row.of_ofAccount? made
    rw [step.tables.2.1] at stands
    exact ⟨row, stands, x, by rw [last, time], Int.le_refl x⟩
  · intro early f late b r same wrote' own saved' stands given
    subst same
    rcases given with ⟨y, last, le⟩
    obtain ⟨engine, call, found, first, look, since, -, ⟨skipped, rfl⟩, attempt⟩ :=
      looked_since run wrote wrote' own
    obtain ⟨row, made, stands'⟩ := saved'.row
    obtain ⟨-, -, -, -, last', -⟩ := Row.of_ofAccount? made
    rw [own] at stands'
    refine ⟨row, stands', ?_⟩
    rcases attempt.writes.lastRequest with
      ⟨raw, old, -, rfl, same⟩ | ⟨z, member, now, shown, same⟩
    · -- A charge keeps the time that it found.
      have account := attempt.account?_found saved'
      rw [own, AccountTable.account?, stands] at account
      have same' := (Row.version_of_toAccount? account).2.2.1
      exact ⟨y, by rw [last', same, same', last], le⟩
    · obtain ⟨g, inSince, -, rfl⟩ := Event.of_mem_history member
      obtain ⟨g', inBefore, shown'⟩ := read
      exact ⟨now, by rw [last', same], steady.le inBefore (by simp [inSince]) shown' shown⟩

/-- After a grant through a token its account stays linked with no earlier time, unless the
link is moved. -/
theorem linked_since {mid : List Event} {a : Account} {x : Int}
    (run : (traffic calls accounts).Run (before ++ e :: mid) s)
    (steady : Steady (before ++ e :: mid)) (wrote : e.commit? = some a)
    (linked : a.vipToken = token) (time : a.lastRequest = some x)
    (read : ∃ f ∈ before, f.exchange.reading? = some x)
    (unmoved : ∀ f ∈ mid, ∀ b : Account, f.commit? = some b → b.address = a.address →
      b.vipToken = token) :
    ∃ r, s.accounts.Linked token r ∧ ∃ y : Int, r.lastRequest = some y ∧ x ≤ y := by
  obtain ⟨s₁, s₂, -, step, rest⟩ := run.at
  have kept : ∃ r, s.accounts.row? a.address = some r ∧
      Integer.write? token = some r.vipToken := by
    refine rest.row_kept ?_ ?_
    · obtain ⟨row, made, stands⟩ := (saved_of_commit run wrote).row
      obtain ⟨-, -, -, -, -, text, -⟩ := Row.of_ofAccount? made
      rw [step.tables.2.1] at stands
      exact ⟨row, stands, by rw [← linked, text]⟩
    · intro early f late b r same wrote' own saved' stands given
      subst same
      obtain ⟨row, made, stands'⟩ := saved'.row
      obtain ⟨-, -, -, -, -, text, -⟩ := Row.of_ofAccount? made
      have linked' : b.vipToken = token := unmoved f (by simp) b wrote' own
      rw [own] at stands'
      exact ⟨row, stands', by rw [← linked', text]⟩
  obtain ⟨r, stands, text⟩ := kept
  obtain ⟨r', stands', time'⟩ := granted_since run steady wrote time read
  rw [stands] at stands'
  cases stands'
  exact ⟨r, ⟨(AccountTable.mem_of_row? stands).1, text⟩, time'⟩

/-- A grant that sees another one through the same token is made a window later. -/
theorem apart_of_sees (run : (traffic calls accounts).Run events s) (steady : Steady events)
    {i j : Nat} {x y : Int} (pays : Pays events s token i x) (pays' : Pays events s token j y)
    {address : Json} (named : calls[j]? = some (engine, .requestGas address))
    (sees : Sees events token j i) : x + engine.tiers.window.micros ≤ y := by
  obtain ⟨engine₁, address₁, named₁, paid⟩ := pays.paid run
  obtain ⟨engine₂, address₂, named₂, paid'⟩ := pays'.paid run
  rw [named] at named₂
  cases named₂
  obtain ⟨before, save, mid, look, after, a, rfl, rfl, wrote, rfl, looked, unmoved⟩ := sees
  have whole : before ++ save :: (mid ++ look :: after)
      = (before ++ save :: mid) ++ look :: after := by simp
  obtain ⟨linked, time⟩ := paid.saves save.exchange (Event.exchange_mem_history (by simp)) a
    (Event.saves_of_commit? wrote)
  obtain ⟨holder?, key, allowance, told, allowed⟩ := paid'.looks look.exchange
    (Event.exchange_mem_history (by simp)) token looked
  have read : ∃ f ∈ before, f.exchange.reading? = some x := by
    obtain ⟨found, early, look', late, rfl, attempt⟩ :=
      attempt_of_named run named₁ (Event.saves_of_commit? wrote)
    rcases attempt.writes.lastRequest with ⟨raw, old, other, -, -⟩ | ⟨z, member, now, shown, same⟩
    · cases other
    · obtain ⟨f, inLate, -, rfl⟩ := Event.of_mem_history member
      rw [time] at same
      cases same
      exact ⟨f, by simp [inLate], shown⟩
  rw [whole] at run steady
  obtain ⟨s₁, s₂, first, step, -⟩ := run.at
  obtain ⟨found, -, answered⟩ := step.tables
  rw [told] at answered
  obtain ⟨r, link, last, shown, le⟩ :=
    linked_since first steady.left wrote linked time read unmoved
  rw [← found] at link
  obtain ⟨holder, latest, rfl, known, le'⟩ :=
    AccountTable.holder_of_linked (AccountTable.Answers.findHolder answered).1 link shown
  have free := Account.window_over ((tokenAllowance_eq_ok.mp allowed).2 holder rfl) known
  calc x + engine.tiers.window.micros
      ≤ last + engine.tiers.window.micros := Int.add_le_add_right le _
    _ ≤ latest + engine.tiers.window.micros := Int.add_le_add_right le' _
    _ ≤ y := free

/-- With a clock that never goes back, a token pays once per window exactly if it does among
grants that did not see each other. -/
theorem paysOnce_iff {window : Period} (run : (traffic calls accounts).Run events s)
    (steady : Steady events) (windows : ∀ c ∈ calls, c.1.tiers.window = window) :
    PaysOnce window events s ↔
      ∀ token i j x y, i ≠ j → Pays events s token i x → Pays events s token j y →
        ¬Sees events token i j → ¬Sees events token j i → Apart window x y := by
  constructor
  · intro once token i j x y ne pays pays' _ _
    exact once token i j x y ne pays pays'
  · intro unseen token i j x y ne pays pays'
    by_cases sees : Sees events token i j
    · obtain ⟨engine, address, named, -⟩ := pays.paid run
      have later := apart_of_sees run steady pays' pays named sees
      rw [windows _ (List.mem_of_getElem? named)] at later
      exact .inr later
    · by_cases sees' : Sees events token j i
      · obtain ⟨engine, address, named, -⟩ := pays'.paid run
        have later := apart_of_sees run steady pays pays' named sees'
        rw [windows _ (List.mem_of_getElem? named)] at later
        exact .inl later
      · exact unseen token i j x y ne pays pays' sees sees'

end Runs

/-! ## A link that is moved -/

/-- The last grant of a call was given. -/
def isGranted (s : Traffic (Except Failure Reply)) (call : Nat) : Bool :=
  match s.programs[call]? with
  | some (.done (.ok .granted)) => true
  | _ => false

theorem granted_of_isGranted {s : Traffic (Except Failure Reply)} {call : Nat}
    (given : isGranted s call = true) : s.programs[call]? = some (.done (.ok .granted)) := by
  unfold isGranted at given
  split at given
  · assumption
  · cases given

/-- Grants to one address, one after the other, at the given times and with the given tokens. -/
def grants (told : List (Int × Nat)) : List (Engine × Call) × List Traffic.Turn :=
  (told.map fun _ =>
      (small (some ⟨List.replicate 20 0x22, rfl⟩), .requestGas (.text Address.zero.lower)),
    (told.mapIdx fun call (now, token) =>
      List.replicate 8 { call, now, node := .ok (Bytes.word token) }).flatten)

theorem paysOnce_iff_two_days :
    let turns := grants [(0, 7), (Instant.day, 7)]
    let run := (traffic turns.1 []).play turns.2
    Steady run.1 ∧ (∀ c ∈ turns.1, c.1.tiers.window = .day) ∧
      (PaysOnce .day run.1 run.2 ↔
        ∀ token i j x y, i ≠ j → Pays run.1 run.2 token i x → Pays run.1 run.2 token j y →
          ¬Sees run.1 token i j → ¬Sees run.1 token j i → Apart .day x y) := by
  intro turns run
  have steady : Steady run.1 := by
    unfold Steady
    decide +kernel
  have windows : ∀ c ∈ turns.1, c.1.tiers.window = .day := by
    simp [turns, grants, small]
  exact ⟨steady, windows, paysOnce_iff (Traffic.run_play _ _) steady windows⟩

/-- An address whose first token is 7, then 8 and then 7 again is granted an allowance through
7 twice at one time: the grant through 8 moves the link of its account. -/
theorem not_paysOnce_moved :
    let turns := grants [(0, 7), (0, 8), (0, 7)]
    let run := (traffic turns.1 []).play turns.2
    (traffic turns.1 []).Run run.1 run.2 ∧ Steady run.1 ∧
      (∀ c ∈ turns.1, c.1.tiers.window = .day) ∧ ¬PaysOnce .day run.1 run.2 := by
  intro turns run
  have steady : Steady run.1 := by
    unfold Steady
    decide +kernel
  have pays (call : Nat) (given : isGranted run.2 call = true)
      (number : ∃ x ∈ Event.history call run.1, x.number? = some 7)
      (reading : ∃ x ∈ Event.history call run.1, x.reading? = some 0) :
      Pays run.1 run.2 7 call 0 :=
    ⟨granted_of_isGranted given, number, reading⟩
  refine ⟨Traffic.run_play _ _, steady, by simp [turns, grants, small], fun once => ?_⟩
  have apart : Apart .day 0 0 :=
    once 7 0 2 0 0 (by decide)
      (pays 0 (by decide +kernel) (by decide +kernel) (by decide +kernel))
      (pays 2 (by decide +kernel) (by decide +kernel) (by decide +kernel))
  revert apart
  unfold Apart
  decide

end Engine

end Paymaster

import Paymaster.Proofs.CallStats
import Paymaster.Proofs.Engine.Uncounted
import Paymaster.Proofs.Http.Envelopes

/-!
# Metrics

Requests that are served one after the other, whatever the rest of the surroundings answers,
leave statistics that agree with what happened (`Endpoint.metrics_agree`): a call is counted
exactly if its request passes the key gate and has a valid envelope (`Endpoint.passes`), under
the name of its operation as it is registered, and what the operations count themselves are
their own successes.
-/

namespace Paymaster

open Dispatcher

/-! ## Surroundings that count -/

/-- Answers requests: the call statistics what counts and what asks for a summary, the rest of
the surroundings all others, in any way. The rest also shows the time. -/
def CallStats.answering {ω : Type} (rest : (r : Request) → ω → r.Answer × ω) :
    (r : Request) → ω × CallStats → r.Answer × (ω × CallStats)
  | .recordCall method code?, (w, stats) =>
    let shown : Instant × ω := rest .clock w
    let recorded := stats.recordCall shown.1 method code?
    (recorded.2, (shown.2, recorded.1))
  | .recordSponsorship gas, (w, stats) => ((), (w, stats.recordSponsorship gas))
  | .recordGrant, (w, stats) => ((), (w, stats.recordGrant))
  | .summarize, (w, stats) =>
    let shown : Instant × ω := rest .clock w
    let summarized := stats.summarize shown.1
    (summarized.2, (shown.2, summarized.1))
  | r, (w, stats) =>
    let answered := rest r w
    (answered.1, (answered.2, stats))

/-- A result that is passed on in another form leaves the same state. -/
theorem Program.run_map {α β σ : Type} (answer : (r : Request) → σ → r.Answer × σ) (f : β → α)
    (p : Program β) (state : σ) :
    (f <$> p).run answer state = (f (p.run answer state).1, (p.run answer state).2) := by
  rw [map_eq_pure_bind, bind_def, run_bind]
  rfl

/-- An action in two parts goes on if the first part has a result. -/
theorem Action.run_bind {α β σ : Type} (answer : (r : Request) → σ → r.Answer × σ)
    (x : Action α) (f : α → Action β) (state : σ) :
    (x >>= f).run.run answer state =
      match (x.run.run answer state).1 with
      | .ok a => (f a).run.run answer (x.run.run answer state).2
      | .error e => (.error e, (x.run.run answer state).2) := by
  rw [ExceptT.run_bind, Program.bind_def, Program.run_bind]
  cases (x.run.run answer state).1 <;> rfl

variable {ω : Type} (rest : (r : Request) → ω → r.Answer × ω) {calls : Nat}

/-- What counts nothing keeps the agreement. -/
theorem Program.Keeps.agree {α : Type} {ends : α → Prop} {p : Program α}
    (keeps : p.Keeps .uncounted ends) {gas : Int} {state : ω × CallStats}
    (agree : state.2.Agree gas calls) :
    ends (p.run (CallStats.answering rest) state).1 ∧
      (p.run (CallStats.answering rest) state).2.2.Agree gas calls := by
  have kept (r : Request) (state : ω × CallStats) (agree : state.2.Agree gas calls)
      (asks : Terms.uncounted.asks r) :
      Terms.uncounted.told ⟨r, (CallStats.answering rest r state).1⟩ ∧
        (CallStats.answering rest r state).2.2.Agree gas calls := by
    refine ⟨trivial, ?_⟩
    cases r with
    | recordCall method code? => cases asks
    | recordSponsorship gas => cases asks
    | recordGrant => cases asks
    | summarize => exact agree.of_counters (CallStats.counters_summarize _ _)
    | _ => exact agree
  exact keeps.run kept agree

/-! ## Calls -/

namespace Methods

open Engine

variable {engine : Engine}

/-- What an operation of the service raises has a text. -/
theorem errorOf_thrown (failure : Failure) : ∃ e, errorOf failure.thrown = .ok e := by
  cases failure <;> exact ⟨_, rfl⟩

/-- An outcome that comes to an envelope, and statistics that agreed before the call, and in which
its operation has counted what it did if it succeeded. -/
def Counted (engine : Engine) (calls : Nat) (name : Text)
    (ended : Except Thrown Result × (ω × CallStats)) : Prop :=
  Told ended.1 ∧ ∃ before : CallStats, before.Agree engine.limits.total calls ∧
    ended.2.2 = before.deed engine.limits.total name ended.1.toBool

/-- An operation that counts nothing, under a name for which nothing is counted. -/
theorem counted_of_uncounted {action : List Json → Action Result}
    (uncounted : ∀ arguments, Uncounted (fun result => ∃ j, result.encode = .ok j)
      (action arguments)) {name : Text}
    (plain : name ≠ "pm_sponsorUserOperation" ∧ name ≠ "pm_requestGas") (arguments : List Json)
    {state : ω × CallStats} (agree : state.2.Agree engine.limits.total calls) :
    Counted engine calls name
      ((handler action arguments).run (CallStats.answering rest) state) := by
  have keeps : (handler action arguments).Keeps .uncounted Told := by
    refine (Program.keeps_map _ _).mpr (Program.Keeps.mono (uncounted arguments) ?_)
    intro outcome ended
    cases outcome with
    | ok result => exact ended
    | error failure => exact errorOf_thrown failure
  obtain ⟨told, agreed⟩ := keeps.agree rest agree
  refine ⟨told, _, agreed, ?_⟩
  unfold CallStats.deed
  rw [if_neg plain.1, if_neg plain.2, ite_self]

theorem counted_sponsor (raw : List Json → Json) (arguments : List Json) {state : ω × CallStats}
    (agree : state.2.Agree engine.limits.total calls) :
    Counted engine calls "pm_sponsorUserOperation"
      ((handler (fun a => sponsor engine (raw a)) arguments).run (CallStats.answering rest)
        state) := by
  have uncounted := (engine.uncounted_sponsor (raw arguments)).agree rest agree
  unfold handler Methods.sponsor
  rw [Program.run_map, Action.run_bind]
  generalize (engine.sponsor (raw arguments)).run.run (CallStats.answering rest) state = ended
    at uncounted
  obtain ⟨outcome, w, stats⟩ := ended
  obtain ⟨gas, after⟩ := uncounted
  cases outcome with
  | error e => exact ⟨errorOf_thrown e, stats, after, rfl⟩
  | ok sponsorship =>
    change sponsorship.gas = engine.limits.total at gas
    refine ⟨⟨_, sponsorship.encode_result⟩, stats, after, ?_⟩
    rw [← gas]
    rfl

theorem counted_requestGas (address : List Json → Json) (arguments : List Json)
    {state : ω × CallStats} (agree : state.2.Agree engine.limits.total calls) :
    Counted engine calls "pm_requestGas"
      ((handler (fun a => requestGas engine (address a)) arguments).run
        (CallStats.answering rest) state) := by
  have uncounted := (engine.uncounted_requestGas (address arguments)).agree rest agree
  unfold handler Methods.requestGas
  rw [Program.run_map, Action.run_bind]
  generalize (engine.requestGas (address arguments)).run.run (CallStats.answering rest) state
    = ended at uncounted
  obtain ⟨outcome, w, stats⟩ := ended
  cases outcome with
  | error e => exact ⟨errorOf_thrown e, stats, uncounted.2, rfl⟩
  | ok u => exact ⟨⟨_, rfl⟩, stats, uncounted.2, rfl⟩

/-- An operation that is found has one of the names, and has counted what it did. -/
theorem counted_of_find? {name : Text} {method : Method Program}
    (found : (registry engine).find? name = some method) :
    method.name ∈ names ∧ ∀ (arguments : List Json) (state : ω × CallStats),
      state.2.Agree engine.limits.total calls →
        Counted engine calls method.name
          ((method.handler arguments).run (CallStats.answering rest) state) := by
  have member := Entries.mem_of_lookup found
  simp only [registry, List.mem_cons, List.not_mem_nil, or_false, Methods.method,
    Prod.mk.injEq] at member
  have remains (arguments : List Json) :
      Uncounted (fun result => ∃ j, result.encode = .ok j) (gasRemain engine (first arguments)) :=
    uncounted_bind (engine.uncounted_balance _) fun b => ⟨_, b.encode_result⟩
  have config (_ : List Json) :
      Uncounted (fun result => ∃ j, result.encode = .ok j) (Methods.config engine) :=
    ⟨_, encode_tiersResult engine.tiers⟩
  have plain : ("pm_gasRemain" : Text) ≠ "pm_sponsorUserOperation" ∧
      ("pm_gasRemain" : Text) ≠ "pm_requestGas" := by decide
  have plain' : ("pm_config" : Text) ≠ "pm_sponsorUserOperation" ∧
      ("pm_config" : Text) ≠ "pm_requestGas" := by decide
  rcases member with ⟨-, rfl⟩ | ⟨-, rfl⟩ | ⟨-, rfl⟩ | ⟨-, rfl⟩
  · exact ⟨by simp [names], fun arguments state => counted_sponsor rest first arguments⟩
  · exact ⟨by simp [names], fun arguments state =>
      counted_of_uncounted rest remains plain arguments⟩
  · exact ⟨by simp [names], fun arguments state =>
      counted_of_uncounted rest config plain' arguments⟩
  · exact ⟨by simp [names], fun arguments state => counted_requestGas rest first arguments⟩

/-- Under the name under which a call is observed its operation has counted what it did. -/
theorem counted_invoke (call : Call) {state : ω × CallStats}
    (agree : state.2.Agree engine.limits.total calls) :
    (observedName (registry engine) call ∈ names ∨
      observedName (registry engine) call = unknownName) ∧
    Counted engine calls (observedName (registry engine) call)
      ((invoke (registry engine) call).run (CallStats.answering rest) state) := by
  unfold invoke observedName
  cases found : (registry engine).find? call.method with
  | none => exact ⟨.inr rfl, ⟨_, rfl⟩, state.2, agree, rfl⟩
  | some method =>
    obtain ⟨known, counted⟩ := counted_of_find? rest found
    refine ⟨.inl known, ?_⟩
    dsimp only
    cases coerced : coerceArguments method.shapes call.params with
    | error thrown => exact ⟨told_of_coerceArguments coerced, state.2, agree, rfl⟩
    | ok arguments => exact counted arguments state agree

theorem run_observe (name : Text) (response : Response) (state : ω × CallStats) :
    ((observe name response).run (CallStats.answering rest) state).2.2 =
      (state.2.recordCall (rest .clock state.1).1 name
        (response.error?.map fun e => ErrorCode.int e.code)).1 := rfl

/-- A call that is dispatched is counted once, whatever comes of it. -/
theorem agree_dispatch (call : Call) {state : ω × CallStats}
    (agree : state.2.Agree engine.limits.total calls) :
    (((dispatcher engine).dispatch call).run (CallStats.answering rest) state).2.2.Agree
      engine.limits.total (calls + 1) := by
  obtain ⟨known, counted⟩ := counted_invoke rest call agree
  unfold dispatch dispatcher
  dsimp only
  rw [Program.bind_def, Program.run_bind]
  generalize (invoke (registry engine) call).run (CallStats.answering rest) state = ended
    at counted
  obtain ⟨outcome, w, stats⟩ := ended
  obtain ⟨told, before, agreed, same⟩ := counted
  obtain ⟨response, made, isResult⟩ := told.respond call
  change stats = before.deed engine.limits.total (observedName (registry engine) call)
    outcome.toBool at same
  have recorded : (((observe (observedName (registry engine) call) response).run
      (CallStats.answering rest) (w, stats)).2.2).Agree engine.limits.total (calls + 1) := by
    have whole (code : ErrorCode)
        (sent : (response.error?.map fun e => ErrorCode.int e.code) = some code) :
        ∃ n, code = .int n := by
      obtain ⟨e, -, rfl⟩ := Option.map_eq_some_iff.mp sent
      exact ⟨e.code, rfl⟩
    have succeeded : outcome.toBool =
        (response.error?.map fun e => ErrorCode.int e.code).isNone := by
      rw [← isResult, Option.isNone_map]
    rw [run_observe, same, succeeded]
    exact agreed.recordCall known _ whole
  dsimp only
  rw [made]
  dsimp only [Dispatcher.tell]
  -- Whether the count failed is no matter to the statistics any more.
  rw [Program.bind_def, Program.run_bind]
  split
  · exact recorded
  · exact recorded

end Methods

/-! ## The health page -/

namespace Health

theorem uncounted_storeAnswers (s : Settings) :
    (storeAnswers s).Keeps .uncounted fun _ => True := by
  unfold storeAnswers
  split
  · exact ⟨rfl, fun _ _ => trivial⟩
  · trivial

theorem uncounted_chain (s : Settings) : (chain s).Keeps .uncounted fun _ => True := by
  unfold chain
  cases s.client with
  | error failure => trivial
  | ok client =>
    refine (Program.keeps_bind client.isConnected _).mpr ?_
    have asked : client.isConnected.Keeps .uncounted fun _ => True := by
      unfold ChainClient.isConnected
      cases client.deadline.verdict with
      | admitted => exact ⟨rfl, fun _ _ => trivial⟩
      | _ => trivial
    exact asked.mono fun connected _ => by cases connected <;> trivial

theorem uncounted_lockServer (s : Settings) : (lockServer s).Keeps .uncounted fun _ => True := by
  unfold lockServer
  split
  · exact ⟨rfl, fun reason _ => by cases reason <;> trivial⟩
  · trivial

/-- The health page counts nothing, though it reads the statistics. -/
theorem uncounted_page (s : Settings) : (page s).Keeps .uncounted fun _ => True := by
  unfold page
  refine (Program.keeps_bind (storeAnswers s) _).mpr
    ((uncounted_storeAnswers s).mono fun answers _ => ?_)
  refine (Program.keeps_bind (chain s) _).mpr ((uncounted_chain s).mono fun part _ => ?_)
  refine (Program.keeps_bind (lockServer s) _).mpr ((uncounted_lockServer s).mono fun part' _ => ?_)
  refine ⟨rfl, fun summary _ => ?_⟩
  cases summary with
  | error fault => trivial
  | ok summary => exact ⟨rfl, fun now _ => trivial⟩

end Health

/-! ## Requests -/

namespace Endpoint

open Http

/-- An engine can be made of the settings. -/
def makesEngine (s : Settings) : Bool :=
  s.tiers.toBool && s.client.toBool && s.limits.toBool

/-- The store can be opened, and an engine can be made of the settings. -/
def assembles (s : Settings) : Bool :=
  s.storeFault?.isNone && makesEngine s

/-- A body with a valid envelope. -/
def hasCall (body : Bytes) : Bool :=
  match read body with
  | .ok (.ok _) => true
  | _ => false

/-- A request that passes the key gate and whose envelope is valid: a body, not an empty one, is
posted to the path of a key, the gate admits the key, an engine is made, and the body is read as
a call. -/
def passes (s : Settings) (w : ω) (r : Http.Request) : Bool :=
  match Path.segment? r.path with
  | none => false
  | some key =>
    r.verb = "POST" && !Path.isAt Path.root r.path && !r.body.isEmpty
      && ((Gate.authorize (some key)).run.run rest w).1.toBool && assembles s && hasCall r.body

/-- The gas of one sponsorship: the sum of the limits as they are set. -/
def gasOf (s : Settings) : Int :=
  s.preVerificationGas + s.verificationGasLimit + s.callGasLimit

theorem total_of_limits {s : Settings} {limits : GasLimits} (made : s.limits = .ok limits) :
    (limits.total : Int) = gasOf s := by
  have made := UserOperation.eq_ok_of_mapError made
  have nonnegative {field : Text} {n : Int} (fine : Problem.ofNegative field n = []) : 0 ≤ n := by
    unfold Problem.ofNegative at fine
    split at fine
    · cases fine
    · omega
  unfold GasLimits.ofInts at made
  dsimp only at made
  split at made
  · rename_i noProblem
    cases made
    simp only [List.isEmpty_iff, List.append_eq_nil_iff] at noProblem
    have first := nonnegative noProblem.1.1
    have second := nonnegative noProblem.1.2
    have third := nonnegative noProblem.2
    simp only [GasLimits.total, gasOf]
    omega
  · cases made

/-- Off the paths of keys, and with another verb than POST, nothing is counted. -/
theorem uncounted_respond (s : Settings) {r : Http.Request}
    (elsewhere : r.verb ≠ "POST" ∨ Path.isAt Path.root r.path = true ∨
      Path.segment? r.path = none) :
    (respond s r).Keeps .uncounted fun _ => True := by
  refine (Program.keeps_map _ _).mpr ?_
  unfold route
  split
  · trivial
  · rename_i notRoot
    split
    · exact Health.uncounted_page s
    · split
      · trivial
      · rename_i key segment
        split
        · rename_i posts
          rcases elsewhere with other | root | missing
          · exact absurd posts other
          · exact absurd ⟨root, posts⟩ notRoot
          · rw [missing] at segment
            cases segment
        · trivial

/-- The engine of settings: if one can be made, it asks for its locks and has the limits that
are set; otherwise nothing is asked. -/
theorem run_engine (s : Settings) :
    if makesEngine s then
      ∃ made : LockSource → Engine, (∀ locks, s.limits = .ok (made locks).limits) ∧
        s.engine.run = .ask .joinLocks fun locks => .done (.ok (made locks))
    else ∃ failure, s.engine.run = .done (.error failure) := by
  unfold makesEngine Settings.engine
  cases s.tiers with
  | error failure => exact ⟨failure, rfl⟩
  | ok tiers =>
    cases s.client with
    | error failure => exact ⟨failure, rfl⟩
    | ok client =>
      cases s.limits with
      | error failure => exact ⟨failure, rfl⟩
      | ok limits =>
        exact ⟨fun locks => ⟨tiers, client, limits, locks, s.storeDeadline⟩, fun _ => rfl, rfl⟩

/-- What a body leads to past the look-up of its key: it is counted once if an engine is made and
the body has a call. -/
theorem agree_admitted (s : Settings) (body : Bytes) {state : ω × CallStats}
    (agree : state.2.Agree (gasOf s) calls) :
    ((admitted s body).run.run (CallStats.answering rest) state).2.2.Agree (gasOf s)
      (calls + (makesEngine s && hasCall body).toNat) := by
  have made := run_engine s
  unfold admitted
  rw [Action.run_bind]
  cases makes : makesEngine s with
  | false =>
    rw [makes] at made
    obtain ⟨failure, engine⟩ := made
    rw [engine]
    exact agree
  | true =>
    rw [makes] at made
    obtain ⟨made, limits, engine⟩ := made
    rw [engine]
    let joined := rest .joinLocks state.1
    have gas := total_of_limits (limits joined.1)
    show (((Except.ok <$> (Methods.dispatcher (made joined.1)).handle body : Program _).run
      (CallStats.answering rest) (joined.2, state.2)).2.2).Agree _ _
    rw [Program.run_map, ← gas]
    rw [← gas] at agree
    unfold handle hasCall
    rcases read body with escape | response | call
    · exact agree
    · exact agree
    · exact Methods.agree_dispatch rest call agree

/-- What is posted to the path of a key is counted once if the store is opened, the gate admits
the key, an engine is made, and the body has a call. -/
theorem agree_posted (s : Settings) {r : Http.Request} {key : Text} (posts : r.verb = "POST")
    (beyond : Path.isAt Path.root r.path = false) (segment : Path.segment? r.path = some key)
    {state : ω × CallStats} (agree : state.2.Agree (gasOf s) calls) :
    ((respond s r).run (CallStats.answering rest) state).2.2.Agree (gasOf s)
      (calls + (passes rest s state.1 r).toNat) := by
  rw [respond_post s posts beyond segment, Program.run_map]
  unfold passes assembles
  simp only [segment, posts, beyond, decide_true, Bool.not_false, Bool.true_and]
  cases fault : s.storeFault? with
  | some message =>
    simp only [Option.isNone_some, Bool.false_and, Bool.and_false]
    rw [post_unopened fault]
    exact agree
  | none =>
    cases body : r.body with
    | nil =>
      unfold post Settings.store
      rw [fault]
      exact agree
    | cons b more =>
      obtain ⟨c, named, rfl⟩ := List.exists_cons_of_ne_nil (ne_nil_of_segment? segment)
      rw [post_eq fault (List.cons_ne_nil c named) (List.cons_ne_nil b more)]
      let looked := rest (.findKey (c :: named)) state.1
      show ((afterLookup s (b :: more) looked.1).run (CallStats.answering rest)
        (looked.2, state.2)).2.2.Agree _
          (calls + ((Gate.admission looked.1).toBool && makesEngine s
            && hasCall (b :: more)).toNat)
      unfold afterLookup
      cases Gate.admission looked.1 with
      | error failure => exact agree
      | ok row => exact agree_admitted rest s (b :: more) agree

/-- A request is counted once if it passes, and otherwise not. -/
theorem agree_respond (s : Settings) (r : Http.Request) {state : ω × CallStats}
    (agree : state.2.Agree (gasOf s) calls) :
    ((respond s r).run (CallStats.answering rest) state).2.2.Agree (gasOf s)
      (calls + (passes rest s state.1 r).toNat) := by
  by_cases keyed : r.verb = "POST" ∧ Path.isAt Path.root r.path = false ∧
      ∃ key, Path.segment? r.path = some key
  · obtain ⟨posts, beyond, key, segment⟩ := keyed
    exact agree_posted rest s posts beyond segment agree
  · have elsewhere : r.verb ≠ "POST" ∨ Path.isAt Path.root r.path = true ∨
        Path.segment? r.path = none := by
      by_contra there
      simp only [not_or, ne_eq, not_not, Bool.not_eq_true] at there
      exact keyed ⟨there.1, there.2.1, Option.ne_none_iff_exists'.mp there.2.2⟩
    have uncounted : passes rest s state.1 r = false := by
      unfold passes
      cases segment : Path.segment? r.path with
      | none => rfl
      | some key =>
        rcases elsewhere with other | root | missing
        · simp [other]
        · simp [root]
        · rw [missing] at segment
          cases segment
    rw [uncounted]
    exact ((uncounted_respond s elsewhere).agree rest agree).2

/-! ## Sequences of requests -/

/-- The state after requests that were served one after the other. -/
def served (s : Settings) : List Http.Request → ω × CallStats → ω × CallStats
  | [], state => state
  | r :: more, state => served s more ((respond s r).run (CallStats.answering rest) state).2

/-- How many of them passed the key gate and had a valid envelope. -/
def passed (s : Settings) : List Http.Request → ω × CallStats → Nat
  | [], _ => 0
  | r :: more, state =>
    (passes rest s state.1 r).toNat +
      passed s more ((respond s r).run (CallStats.answering rest) state).2

theorem agree_served (s : Settings) (requests : List Http.Request) {state : ω × CallStats}
    (agree : state.2.Agree (gasOf s) calls) :
    (served rest s requests state).2.Agree (gasOf s) (calls + passed rest s requests state) := by
  induction requests generalizing calls state with
  | nil => exact agree
  | cons r more ih =>
    rw [served, passed, ← Nat.add_assoc]
    exact ih (agree_respond rest s r agree)

/-- After any requests that are served one after the other from fresh statistics, the statistics
agree with the number of requests that passed the key gate and had a valid envelope, and so does
every summary of them, which shows all the gas and sends the count of every code under a text of
its own. -/
theorem metrics_agree (s : Settings) (retention : Int) (w : ω) (requests : List Http.Request) :
    let stats := (served rest s requests (w, { retention })).2
    let calls := passed rest s requests (w, { retention })
    stats.Agree (gasOf s) calls ∧
      ∀ now summary, (stats.summarize now).2 = .ok summary →
        summary.stats.Agree (gasOf s) calls ∧ Integer.write? stats.gas = some summary.gas ∧
          CallStats.codeMembers summary.stats.byCode =
            summary.stats.byCode.map fun e => (e.1.display, .int e.2) := by
  intro stats calls
  have agree : stats.Agree (gasOf s) (0 + calls) :=
    agree_served rest s requests (CallStats.agree_fresh retention (gasOf s))
  rw [Nat.zero_add] at agree
  refine ⟨agree, fun now summary told => ?_⟩
  obtain ⟨same, gas⟩ := CallStats.of_summarize told
  have told := agree.of_counters same
  exact ⟨told, gas, told.codeMembers⟩

end Endpoint

end Paymaster

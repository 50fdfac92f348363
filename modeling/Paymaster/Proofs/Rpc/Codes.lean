import Paymaster.Proofs.Engine.Codes
import Paymaster.Proofs.Http.Concealment
import Paymaster.Proofs.Rpc.Registering

/-!
# Stable codes

Callers branch on the codes of errors. A body with a valid envelope is answered with the code
of an unknown method exactly if no operation has its name up to letter case, and otherwise with
a result or with one of the stable codes (`StablyAnswered`): nothing that an operation raises
comes through without a code of its own. This is so in every ledger that posted bodies bring
about while clocks show the years 1970 to 9998, at every point of a run in which they take
turns, whatever the store, the node, the key and the locks do (`Endpoint.codes_stable`).
-/

namespace Paymaster

open Dispatcher

/-- The names of the registered operations. -/
def Methods.names : List Text :=
  ["pm_sponsorUserOperation", "pm_gasRemain", "pm_config", "pm_requestGas"]

/-- An outcome that is an envelope: the code for an unknown method is given exactly to a call of
a name that no operation has up to letter case, and every other error has a stable code. -/
def StablyAnswered (call : Call) (outcome : Except Failure (Except Escape Response)) : Prop :=
  ∃ response, outcome = .ok (.ok response) ∧
    ((∃ e, response.outcome = .error e ∧ e.code = -32601) ↔
      call.method.lower ∉ Methods.names.map Text.lower) ∧
    ∀ e, response.outcome = .error e → e.code = -32601 ∨ e.code ∈ RpcError.stableCodes

/-- What an operation raises with a stable code. -/
def Thrown.Stable (thrown : Thrown) : Prop :=
  ∃ e, thrown = .coded e ∧ e.code ∈ RpcError.stableCodes

theorem Thrown.stable_because {kind : RpcError.Kind} (known : kind.code ∈ RpcError.stableCodes)
    (reason : Text) : (Thrown.coded (.because kind reason)).Stable :=
  ⟨_, rfl, known⟩

/-- An outcome of an operation: a result that is written, or an error with a stable code. -/
def StableOutcome : Except Thrown Result → Prop
  | .ok result => ∃ j, result.encode = .ok j
  | .error thrown => thrown.Stable

/-! ## Arguments -/

namespace Dispatcher

/-- Without a shape for numbers, a value that is not coerced is refused with a stable code. -/
theorem stable_of_coerce {shape : Shape} (noNumber : ∀ name, shape ≠ .number name) {value : Json}
    {fault : Shape.Fault} (refused : shape.coerce value = .error fault) (index : Nat) :
    (thrownOf index fault).Stable := by
  cases fault with
  | mismatch shape => exact Thrown.stable_because (by decide) _
  | unsupported => exact Thrown.stable_because (by decide) _
  | beyondDouble =>
    cases shape with
    | number name => exact absurd rfl (noNumber name)
    | _ =>
      simp only [Shape.coerce] at refused
      repeat' first | cases refused | split at refused

theorem stable_of_coerceFrom {shapes : List Shape}
    (noNumber : ∀ shape ∈ shapes, ∀ name, shape ≠ .number name) {index : Nat}
    {params : List Json} {thrown : Thrown}
    (refused : coerceFrom index shapes params = .error thrown) : thrown.Stable := by
  induction shapes generalizing index params with
  | nil => cases refused
  | cons shape shapes ih =>
    cases params with
    | nil =>
      cases refused
      exact Thrown.stable_because (by decide) _
    | cons value values =>
      unfold coerceFrom at refused
      cases first : shape.coerce value with
      | error fault =>
        simp only [first] at refused
        cases refused
        exact stable_of_coerce (noNumber shape (by simp)) first index
      | ok argument =>
        cases rest : coerceFrom (index + 1) shapes values with
        | error thrown' =>
          simp only [first, rest] at refused
          cases refused
          exact ih (fun shape member => noNumber shape (by simp [member])) rest
        | ok arguments =>
          simp only [first, rest] at refused
          cases refused

end Dispatcher

/-! ## Operations -/

namespace Methods

open Engine

variable {engine : Engine}

theorem find?_eq_none_iff (engine : Engine) (name : Text) :
    (registry engine).find? name = none ↔ name.lower ∉ names.map Text.lower := by
  have keys : names.map Text.lower = Entries.keys (registry engine).entries := rfl
  rw [keys, Registry.find?, List.lookup_eq_none_iff, Entries.keys, List.mem_map]
  constructor
  · rintro others ⟨⟨key, method⟩, member, rfl⟩
    simpa using others _ member
  · intro unknown p member
    simpa using fun same : name.lower = p.1 => unknown ⟨p, member, same.symm⟩

theorem keeps_handler {action : List Json → Action Result}
    (coded : ∀ arguments, Coded (fun result => ∃ j, result.encode = .ok j) (action arguments))
    (arguments : List Json) : (handler action arguments).Keeps .inTime StableOutcome := by
  refine (Program.keeps_map _ _).mpr (Program.Keeps.mono (coded arguments) fun outcome ended => ?_)
  cases outcome with
  | ok result => exact ended
  | error failure =>
    obtain ⟨e, rfl, stable⟩ := ended
    exact ⟨e, rfl, stable⟩

/-- What a found operation does with coerced arguments. -/
theorem keeps_of_find? (regular : engine.Regular) {name : Text} {method : Method Program}
    (found : (registry engine).find? name = some method) :
    (∀ shape ∈ method.shapes, ∀ name, shape ≠ .number name) ∧
      ∀ arguments, (method.handler arguments).Keeps .inTime StableOutcome := by
  have member := Entries.mem_of_lookup found
  simp only [registry, List.mem_cons, List.not_mem_nil, or_false, Methods.method,
    Prod.mk.injEq] at member
  rcases member with ⟨-, rfl⟩ | ⟨-, rfl⟩ | ⟨-, rfl⟩ | ⟨-, rfl⟩
  · refine ⟨by simp, keeps_handler fun arguments => ?_⟩
    refine Action.keeps_bind ((coded_sponsor regular _).mono fun sponsorship _ => ?_)
    exact Action.keeps_bind (Action.keeps_request trivial fun _ _ => ⟨_, sponsorship.encode_result⟩)
  · refine ⟨by simp, keeps_handler fun arguments => ?_⟩
    exact Action.keeps_bind ((coded_balance engine _).mono fun b _ => ⟨_, b.encode_result⟩)
  · exact ⟨by simp, keeps_handler fun arguments =>
      Action.keeps_pure ⟨_, encode_tiersResult engine.tiers⟩⟩
  · refine ⟨by simp, keeps_handler fun arguments => ?_⟩
    refine Action.keeps_bind ((coded_requestGas regular _).mono fun _ _ => ?_)
    exact Action.keeps_bind (Action.keeps_request trivial fun _ _ => ⟨_, rfl⟩)

/-- A call gives the code of an unknown method, or an operation was found and gives no error
but stable ones. -/
theorem keeps_invoke (regular : engine.Regular) (call : Call) :
    (invoke (registry engine) call).Keeps .inTime fun outcome =>
      (call.method.lower ∉ names.map Text.lower ∧
        outcome = .error (.coded (.because .methodNotFound "Method not found"))) ∨
      call.method.lower ∈ names.map Text.lower ∧ StableOutcome outcome := by
  unfold invoke
  cases found : (registry engine).find? call.method with
  | none => exact .inl ⟨(find?_eq_none_iff engine _).mp found, rfl⟩
  | some method =>
    have known : call.method.lower ∈ names.map Text.lower := by
      by_contra unknown
      rw [(find?_eq_none_iff engine _).mpr unknown] at found
      cases found
    obtain ⟨noNumber, keeps⟩ := keeps_of_find? regular found
    dsimp only
    cases coerced : coerceArguments method.shapes call.params with
    | error thrown => exact .inr ⟨known, stable_of_coerceFrom noNumber coerced⟩
    | ok arguments => exact (keeps arguments).mono fun _ stable => .inr ⟨known, stable⟩

/-- The envelope of what a call gives. -/
theorem stablyAnswered_respond {call : Call} {outcome : Except Thrown Result}
    (gives : (call.method.lower ∉ names.map Text.lower ∧
        outcome = .error (.coded (.because .methodNotFound "Method not found"))) ∨
      call.method.lower ∈ names.map Text.lower ∧ StableOutcome outcome) :
    ∃ response, respond call outcome = .ok response ∧ StablyAnswered call (.ok (.ok response)) := by
  rcases gives with ⟨unknown, rfl⟩ | ⟨known, stable⟩
  · refine ⟨_, rfl, _, rfl, iff_of_true ⟨_, rfl, rfl⟩ unknown, fun e same => .inl ?_⟩
    cases same
    rfl
  · rcases outcome with thrown | result
    · obtain ⟨e, rfl, code⟩ := stable
      refine ⟨_, rfl, _, rfl, iff_of_false ?_ (not_not_intro known), fun e' same => .inr ?_⟩
      · rintro ⟨e', same, unknown⟩
        cases same
        change e.code = -32601 at unknown
        rw [unknown] at code
        revert code
        decide
      · cases same
        exact code
    · obtain ⟨j, encoded⟩ := stable
      have made : respond call (.ok result) = .ok (.ofResult j call.id) := by
        rw [respond, written, Except.bind, encoded]
      refine ⟨_, made, _, rfl, iff_of_false ?_ (not_not_intro known), fun e' same => by cases same⟩
      rintro ⟨e', same, -⟩
      cases same

/-- Every call is answered stably. -/
theorem keeps_dispatch (regular : engine.Regular) (call : Call) :
    ((dispatcher engine).dispatch call).Keeps .inTime fun outcome =>
      StablyAnswered call (.ok outcome) := by
  refine (Program.keeps_bind _ _).mpr ((keeps_invoke regular call).mono fun outcome ended => ?_)
  obtain ⟨response, made, stable⟩ := stablyAnswered_respond ended
  rw [made]
  refine ⟨trivial, fun answer told => ?_⟩
  cases told.1.counted
  exact stable

end Methods

/-! ## Posted bodies -/

/-- Settings of which an engine is made, with limits that fit a word. -/
structure Settings.Assembled (s : Settings) : Prop where
  tiers : ∃ tiers, s.tiers = .ok tiers
  client : ∃ client, s.client = .ok client
  limits : ∃ limits, s.limits = .ok limits ∧ Engine.LimitsFit limits

theorem Tiers.window_of_ofSettings {create regular vip vipContract : Option Text} {tiers : Tiers}
    (made : ofSettings create regular vip vipContract = .ok tiers) : tiers.window = .day := by
  obtain ⟨_, -, made⟩ := UserOperation.bind_eq_ok made
  obtain ⟨_, -, made⟩ := UserOperation.bind_eq_ok made
  obtain ⟨_, -, made⟩ := UserOperation.bind_eq_ok made
  dsimp only at made
  split at made
  · cases made
    rfl
  · cases made

theorem Settings.Assembled.keeps_engine {s : Settings} (assembled : s.Assembled) :
    s.engine.Keeps .inTime (fun _ => False) Engine.Regular := by
  obtain ⟨⟨tiers, tiersMade⟩, ⟨client, clientMade⟩, ⟨limits, limitsMade, fit⟩⟩ := assembled
  unfold Settings.engine
  rw [tiersMade, clientMade, limitsMade]
  refine ⟨trivial, fun locks _ => ⟨?_, fit⟩⟩
  exact Tiers.window_of_ofSettings (UserOperation.eq_ok_of_mapError tiersMade)

namespace Endpoint

/-- What a body leads to past the look-up of its key: a stable answer if it has a valid
envelope. -/
theorem keeps_admitted {s : Settings} (assembled : s.Assembled) (body : Bytes) :
    (admitted s body).run.Keeps .inTime fun outcome =>
      ∀ call, read body = .ok (.ok call) → StablyAnswered call outcome := by
  unfold admitted
  rw [ExceptT.run_bind]
  refine (Program.keeps_bind _ _).mpr ?_
  refine Program.Keeps.mono assembled.keeps_engine fun made ended => ?_
  cases made with
  | error e => exact ended.elim
  | ok engine =>
    refine (Program.keeps_map Except.ok _).mpr ?_
    unfold handle
    rcases read body with escape | response | call
    · exact nofun
    · exact nofun
    · refine (Methods.keeps_dispatch ended call).mono fun outcome stable call' same => ?_
      cases same
      exact stable

/-- Bodies that were posted under keys that are admitted, each to a service with settings of its
own, over one ledger that starts empty. -/
def postings (posts : List (Settings × Bytes)) :
    Traffic (Except Failure (Except Escape Response)) :=
  { programs := posts.map fun p => (admitted p.1 p.2).run, accounts := [] }

/-- A body with a valid envelope gets a stable answer. -/
def StableAt (posts : List (Settings × Bytes)) (i : Nat)
    (outcome : Except Failure (Except Escape Response)) : Prop :=
  ∀ (s : Settings) (body : Bytes) (call : Call), posts[i]? = some (s, body) →
    read body = .ok (.ok call) → StablyAnswered call outcome

theorem keeps_postings {posts : List (Settings × Bytes)} (assembled : ∀ p ∈ posts, p.1.Assembled)
    (i : Nat) (p : Program (Except Failure (Except Escape Response)))
    (under : (postings posts).programs[i]? = some p) : p.Keeps .inTime (StableAt posts i) := by
  rw [postings, List.getElem?_map, Option.map_eq_some_iff] at under
  obtain ⟨⟨s, body⟩, given, rfl⟩ := under
  refine (keeps_admitted (assembled _ (List.mem_of_getElem? given)) body).mono ?_
  intro outcome stable s' body' call same
  rw [given] at same
  cases same
  exact stable call

/-- In every run of posted bodies while clocks show usual instants, and at every point of it, a
body with a valid envelope gets a stable answer if its program is run on to its end. -/
theorem codes_stable {posts : List (Settings × Bytes)} (assembled : ∀ p ∈ posts, p.1.Assembled)
    {state : Traffic (Except Failure (Except Escape Response))} {events : List Event}
    (run : (postings posts).Run events state) (inTime : ∀ e ∈ events, e.exchange.InTime)
    {i : Nat} {s : Settings} {body : Bytes} {call : Call} (posted : posts[i]? = some (s, body))
    (valid : read body = .ok (.ok call)) :
    ∃ p, state.programs[i]? = some p ∧ ∀ {ω : Type} (world : World ω) (w : ω), world.InTime →
      StablyAnswered call (p.run world.answering (w, state.accounts)).1 := by
  have kept : ∀ e ∈ events, e.found.Dated → Terms.inTime.asks e.exchange.request →
      e.found.Answers e.exchange.request e.exchange.answer e.left →
      Terms.inTime.told e.exchange ∧ e.left.Dated := by
    intro e member dated asked answered
    obtain ⟨told, after⟩ := dated.answers asked answered
    exact ⟨⟨inTime e member, told⟩, after⟩
  obtain ⟨dated, each⟩ := run.keeps kept AccountTable.dated_nil (keeps_postings assembled)
  have started : (postings posts).programs[i]? = some (admitted s body).run := by
    rw [postings, List.getElem?_map, posted]
    rfl
  obtain ⟨p, under, -⟩ := run.reaches started
  refine ⟨p, under, fun world w usual => ?_⟩
  have answering := usual.answering
  exact ((each i p under).run answering dated).1 s body call posted valid

theorem assembled_keyed : keyed.Assembled :=
  ⟨⟨_, rfl⟩, ⟨_, rfl⟩, ⟨⟨52304, 100000, 33100⟩, rfl, by decide⟩⟩

/-- A request for a grant to the zero address, in capital letters. -/
def loudGrant : Bytes :=
  Bytes.ofAscii ("\x7b\"jsonrpc\":\"2.0\",\"id\":7,\"method\":\"PM_REQUESTGAS\",\"params\":[\"0x"
    ++ String.ofList (List.replicate 40 '0') ++ "\"]\x7d")

/-- The request alone, at the start of 1970 and without a node. -/
theorem codes_stable_loud_grant : ∃ call, read loudGrant = .ok (.ok call) ∧
    StablyAnswered call ((admitted keyed loudGrant).run.run
      (World.still 0 fun _ => .error .failed).answering ((), [])).1 := by
  have asked : ((read loudGrant).toOption.bind Except.toOption).isSome = true := by decide +kernel
  generalize got : read loudGrant = outcome at asked
  rcases outcome with escape | response | call
  · cases asked
  · cases asked
  · refine ⟨call, rfl, ?_⟩
    have assembled : ∀ p ∈ [(keyed, loudGrant)], p.1.Assembled := by simpa using assembled_keyed
    have first : [(keyed, loudGrant)][0]? = some (keyed, loudGrant) := rfl
    obtain ⟨p, under, stable⟩ := codes_stable assembled .refl (by simp) first got
    cases under
    exact stable _ () (World.inTime_still (by decide) _)

end Endpoint

end Paymaster

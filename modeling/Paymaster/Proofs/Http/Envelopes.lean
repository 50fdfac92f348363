import Paymaster.Http.Endpoint
import Paymaster.Proofs.Http.Admission
import Paymaster.Proofs.Rpc.Answering

/-!
# Which requests are answered in envelopes

An answer of the endpoint is meant to be an envelope that goes out with status 200
(`Http.Answer.IsEnvelope`), and a verb other than POST is meant to be refused in one without
anything being asked (`Endpoint.Enveloped`). On the path of a key this is so for POST, whatever
the body and whatever the surroundings reply, and for the verbs that are refused by name; it
is not so for any other verb, nor for the health page behind a line feed
(`Endpoint.enveloped_iff`). The options of a key are answered with status 405
(`Endpoint.not_enveloped_options`).
-/

namespace Paymaster

/-- Ends that are allowed after all histories are the ends of all runs. -/
theorem Program.Follows.run {α σ : Type} {asks : List Exchange → Request → Prop}
    {ends : α → Prop} {p : Program α} (followed : p.Follows asks fun _ a => ends a)
    (reply : (q : Request) → σ → q.Answer × σ) (w : σ) : ends (p.run reply w).1 := by
  induction p generalizing asks w with
  | done a => exact followed
  | ask r next ih => exact ih _ (followed.2 _) _

/-- A program in two parts asks nothing only if neither part does. -/
theorem Program.bind_eq_done {α β : Type} {p : Program α} {f : α → Program β} {b : β}
    (ended : p.bind f = .done b) : ∃ a, p = .done a ∧ f a = .done b := by
  cases p with
  | done a => exact ⟨a, rfl, ended⟩
  | ask r next => cases ended

/-- The health page asks for the summary, whatever it asks before. -/
theorem Health.page_ne_done (s : Settings) (a : Http.Answer) : page s ≠ .done a := by
  intro ended
  obtain ⟨answers, -, ended⟩ := Program.bind_eq_done ended
  obtain ⟨chain, -, ended⟩ := Program.bind_eq_done ended
  obtain ⟨lockServer, -, ended⟩ := Program.bind_eq_done ended
  cases ended

namespace Http.Answer

/-! ## Answers in envelopes -/

/-- An answer that goes out with status 200 and an envelope for its body. -/
structure IsEnvelope (a : Answer) : Prop where
  status : a.status = 200
  goesOut : a.body.bytes.toBool = true
  envelope : ∃ j, a.body = .json j ∧ j.IsEnvelope

theorem isEnvelope_of_bytes (r : Response) {a : Answer} (status : a.status = 200)
    (body : a.body = .json r.toJson) (encoded : a.body.bytes.toBool = true) : a.IsEnvelope :=
  ⟨status, encoded, _, body, r.isEnvelope_toJson⟩

theorem isEnvelope_internal : internal.IsEnvelope :=
  isEnvelope_of_bytes (.ofError (.plain .internal)) rfl rfl (by decide +kernel)

/-- An envelope without bytes is replaced by one that has them. -/
theorem isEnvelope_sent (r : Response) : (ofResponse r).sent.IsEnvelope := by
  unfold sent
  split
  · rename_i bytes encoded
    exact isEnvelope_of_bytes r rfl rfl (by rw [encoded]; rfl)
  · exact isEnvelope_internal

end Http.Answer

namespace Endpoint

open Http

/-- Every outcome of a body that is posted is sent as an envelope. -/
theorem isEnvelope_sentOf (outcome : Except Failure (Except Escape Response)) :
    (sentOf outcome).IsEnvelope := by
  have internal : Answer.internal.sent.IsEnvelope := by
    rw [sent_internal]
    exact Answer.isEnvelope_internal
  rcases outcome with e | escape | response
  · cases e with
    | rpc e => exact Answer.isEnvelope_sent _
    | _ => exact internal
  · exact internal
  · exact Answer.isEnvelope_sent response

/-! ## What is promised -/

/-- The pages of the documentation. -/
def documentation : List Text :=
  ["/docs", "/redoc", "/openapi.json"]

/-- A request for the health page or for a page of the documentation. -/
def ForPage (r : Http.Request) : Prop :=
  (r.verb = "GET" ∧ r.path = Path.health) ∨
    ((r.verb = "GET" ∨ r.verb = "HEAD") ∧ ∃ page ∈ documentation, Path.isAt page r.path = true)

instance : DecidablePred ForPage :=
  fun _ => inferInstanceAs (Decidable (_ ∨ _))

/-- The refusal of a verb. -/
def verbRefusal : Answer :=
  refusal "Parse error" "POST method expected"

theorem isEnvelope_verbRefusal : verbRefusal.IsEnvelope :=
  Answer.isEnvelope_of_bytes
    (.ofError { kind := .parse, message := "Parse error", data := .text "POST method expected" })
    rfl rfl (by decide +kernel)

/-- What the endpoint promises for a request: the answer is an envelope, whatever its
surroundings reply, and a verb other than POST is refused without anything being asked. -/
structure Enveloped (s : Settings) (r : Http.Request) : Prop where
  answer : ∀ {σ : Type} (reply : (q : Paymaster.Request) → σ → q.Answer × σ) (w : σ),
    ((respond s r).run reply w).1.IsEnvelope
  refusal : r.verb ≠ "POST" → respond s r = .done verbRefusal

/-! ## POST -/

theorem enveloped_root (s : Settings) {r : Http.Request} (posts : r.verb = "POST")
    (root : Path.isAt Path.root r.path = true) : Enveloped s r := by
  have answered : respond s r = .done keyMissing.sent := by
    unfold respond route
    rw [if_pos ⟨root, posts⟩]
    rfl
  refine ⟨fun reply w => ?_, fun other => absurd posts other⟩
  rw [answered]
  show keyMissing.sent.IsEnvelope
  exact Answer.isEnvelope_sent _

theorem enveloped_post (s : Settings) {r : Http.Request} {key : Text} (posts : r.verb = "POST")
    (segment : Path.segment? r.path = some key) : Enveloped s r := by
  cases root : Path.isAt Path.root r.path with
  | true => exact enveloped_root s posts root
  | false =>
    have ends : (respond s r).Follows (fun _ _ => True) fun _ a => a.IsEnvelope := by
      rw [respond_post s posts root segment, Program.follows_map]
      exact (Program.follows_any _).mono (fun _ _ => id) fun _ outcome _ =>
        isEnvelope_sentOf outcome
    exact ⟨ends.run, fun other => absurd posts other⟩

/-! ## Other verbs -/

/-- The health page asks, so it is not the refusal of a verb. -/
theorem not_enveloped_health (s : Settings) {r : Http.Request} (gets : r.verb = "GET")
    (health : Path.isAt Path.health r.path = true) : ¬Enveloped s r := by
  intro promised
  have page : respond s r = Answer.sent <$> Health.page s := by
    unfold respond route
    rw [if_neg (fun given => absurd (gets.symm.trans given.2) (by decide)), if_pos ⟨health, gets⟩]
  have refused := promised.refusal (by rw [gets]; decide)
  rw [page] at refused
  obtain ⟨answer, ended, -⟩ := Program.bind_eq_done refused
  exact Health.page_ne_done s answer ended

/-- Off the health page a verb other than POST alone decides the answer. -/
theorem respond_other (s : Settings) {r : Http.Request} {key : Text} (other : r.verb ≠ "POST")
    (notHealth : ¬(Path.isAt Path.health r.path = true ∧ r.verb = "GET"))
    (segment : Path.segment? r.path = some key) :
    respond s r =
      .done (if refusedVerbs.contains r.verb then verbRefusal else .wrongVerb) := by
  have answered : respond s r =
      .done (if refusedVerbs.contains r.verb then postExpected else .wrongVerb).sent := by
    unfold respond route
    rw [if_neg (fun given => other given.2), if_neg notHealth, segment]
    simp only [if_neg other]
    rfl
  rw [answered]
  cases refusedVerbs.contains r.verb with
  | true => exact congrArg _ (sent_of_bytes (by decide +kernel))
  | false => exact congrArg _ (sent_of_bytes (by decide +kernel))

theorem enveloped_other_iff (s : Settings) {r : Http.Request} {key : Text}
    (other : r.verb ≠ "POST")
    (notHealth : ¬(Path.isAt Path.health r.path = true ∧ r.verb = "GET"))
    (segment : Path.segment? r.path = some key) :
    Enveloped s r ↔ r.verb ∈ refusedVerbs := by
  have answered := respond_other s other notHealth segment
  by_cases named : r.verb ∈ refusedVerbs
  · rw [if_pos (by simpa using named)] at answered
    refine iff_of_true ⟨fun reply w => ?_, fun _ => answered⟩ named
    rw [answered]
    exact isEnvelope_verbRefusal
  · rw [if_neg (by simpa using named)] at answered
    refine iff_of_false (fun promised => ?_) named
    have same := answered.symm.trans (promised.refusal other)
    have status := congrArg Answer.status (Program.done.inj same)
    exact absurd status (by decide)

/-! ## All requests -/

/-- On the path of a key, and apart from requests for a page, the promise is kept exactly for
POST and the verbs that are refused by name, with the exception of the health page behind a
line feed. At the root it is kept for POST. -/
theorem enveloped_iff (s : Settings) (r : Http.Request) :
    (∀ key, Path.segment? r.path = some key → ¬ForPage r →
      (Enveloped s r ↔ (r.verb = "POST" ∨ r.verb ∈ refusedVerbs) ∧
        ¬(r.verb = "GET" ∧ r.path = "/health\n"))) ∧
    (r.path = Path.root → r.verb = "POST" → Enveloped s r) := by
  constructor
  · intro key segment notPage
    by_cases posts : r.verb = "POST"
    · refine iff_of_true (enveloped_post s posts segment) ⟨.inl posts, fun given => ?_⟩
      exact absurd (posts.symm.trans given.1) (by decide)
    · by_cases health : Path.isAt Path.health r.path = true ∧ r.verb = "GET"
      · have behind : r.path = "/health\n" := by
          have apart : r.path = Path.health ∨ r.path = Path.health ++ "\n" := by
            simpa [Path.isAt] using health.1
          exact apart.resolve_left fun exact => notPage (.inl ⟨health.2, exact⟩)
        exact iff_of_false (not_enveloped_health s health.2 health.1) fun given =>
          given.2 ⟨health.2, behind⟩
      · rw [enveloped_other_iff s posts health segment]
        constructor
        · intro named
          refine ⟨.inr named, fun given => health ⟨?_, given.1⟩⟩
          rw [given.2]
          decide
        · exact fun given => given.1.resolve_left posts
  · intro root posts
    exact enveloped_root s posts (by rw [root]; decide)

/-- A request without a body. -/
def bare (verb path : Text) : Http.Request :=
  { host := "localhost", verb, path }

/-- A service without a signing key: a body that is posted to a key and the deletion of a key
are answered in envelopes, and so is a body that is posted to the root. -/
theorem enveloped_iff_key :
    Enveloped {} (bare "POST" "/k") ∧ Enveloped {} (bare "DELETE" "/k") ∧
      Enveloped {} (bare "POST" "/") :=
  ⟨((enveloped_iff {} (bare "POST" "/k")).1 "k" (by decide) (by decide)).mpr (by decide),
    ((enveloped_iff {} (bare "DELETE" "/k")).1 "k" (by decide) (by decide)).mpr (by decide),
    (enveloped_iff {} (bare "POST" "/")).2 (by decide) (by decide)⟩

/-- The options of a key: no envelope, but a bare answer with status 405. -/
theorem not_enveloped_options : ¬Enveloped {} (bare "OPTIONS" "/k") := by
  intro promised
  have status : Answer.wrongVerb.sent.status = 200 :=
    (promised.answer Surroundings.answer threeKeys).status
  rw [sent_of_bytes (by decide +kernel)] at status
  exact absurd status (by decide)

end Endpoint

end Paymaster

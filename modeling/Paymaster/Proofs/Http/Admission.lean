import Paymaster.Http.Endpoint
import Paymaster.Proofs.Rpc.Answering
import Paymaster.Surroundings.Basic

/-!
# What a key decides

A body that is posted to the path of a key first has its key looked up. Up to an enabled row
nothing else is asked of the surroundings, and without one nothing is asked afterwards either:
the body and the settings do not matter (`Endpoint.post_eq`). Past an enabled row the key is not
used again (`Endpoint.admitted`). So a key that is not admitted leaves everything as it was and
gets the same answer whether it is unknown or disabled, and two keys that are admitted cannot be
told apart (`Endpoint.admission_decides`).

All this takes two libraries that do their part (`Endpoint.Serves`): one opens the store, and one
splits the address of the request. Otherwise no key is looked up, and whatever it is, the answer
is that of a failure which is not meant for the caller (`Endpoint.serve_of_not_serves`).

A line feed as the only segment of a path belongs to the path of the root, where no key is
looked up; nothing happens there at all, even if the line feed is an enabled key
(`Endpoint.not_decides_line_feed`).
-/

namespace Paymaster

/-! ## Keys of a service -/

namespace Surroundings

/-- A key that nobody may use: it has no enabled row, or keys cannot be looked up. -/
def Bars (w : Surroundings) (key : Text) : Prop :=
  (∀ row ∈ w.keys, row.key = key → row.enabled = false) ∨ ∃ fault, w.findKey key = .error fault

/-- A look-up of the key succeeds and finds no enabled row: it is unknown or disabled. -/
def Refuses (w : Surroundings) (key : Text) : Prop :=
  ∃ found, w.findKey key = .ok found ∧ ∀ row, found = some row → row.enabled = false

/-- A look-up of the key finds an enabled row. -/
def Admits (w : Surroundings) (key : Text) : Prop :=
  ∃ row, w.findKey key = .ok (some row) ∧ row.enabled = true

/-- A row that is found is a row of the table. -/
theorem mem_of_findKey {w : Surroundings} {key : Text} {row : ApiKey}
    (found : w.findKey key = .ok (some row)) : row ∈ w.keys ∧ row.key = key := by
  unfold findKey at found
  split at found
  · cases found
  · split at found
    · cases found
    · unfold KeyTable.lookUp at found
      split at found
      · cases found
      · have present : w.keys.row? key = some row := Except.ok.inj found
        exact ⟨List.mem_of_find?_eq_some present, by simpa using List.find?_some present⟩

theorem Bars.not_enabled {w : Surroundings} {key : Text} (barred : w.Bars key) {row : ApiKey}
    (found : w.findKey key = .ok (some row)) : row.enabled = false := by
  rcases barred with unknown | ⟨fault, failed⟩
  · obtain ⟨member, same⟩ := mem_of_findKey found
    exact unknown row member same
  · rw [failed] at found
    cases found

end Surroundings

namespace Gate

theorem admission_enabled {row : ApiKey} (enabled : row.enabled = true) :
    admission (.ok (some row)) = .ok row := by
  simp [admission, enabled]

/-- What is found without an enabled row is refused in the same words. -/
theorem admission_refused {found : Option ApiKey}
    (disabled : ∀ row, found = some row → row.enabled = false) :
    admission (.ok found) = .error rejected := by
  cases found with
  | none => rfl
  | some row => simp [admission, disabled row rfl]

/-- Without an enabled row there is no admission. -/
theorem admission_error {found : Except StoreFault (Option ApiKey)}
    (disabled : ∀ row, found = .ok (some row) → row.enabled = false) :
    admission found = .error lookupFailed ∨ admission found = .error rejected := by
  cases found with
  | error fault => exact .inl rfl
  | ok found =>
    refine .inr (admission_refused fun row same => disabled row ?_)
    rw [same]

end Gate

namespace Endpoint

open Http

/-! ## Posting -/

/-- A body, not an empty one, that is posted to a path of one segment. -/
structure Posted (r : Http.Request) (key : Text) : Prop where
  verb : r.verb = "POST"
  path : Path.segment? r.path = some key
  body : r.body ≠ []

theorem ne_nil_of_segment? {path key : Text} (segment : Path.segment? path = some key) :
    key ≠ [] := by
  unfold Path.segment? at segment
  split at segment
  · cases segment
  · split at segment
    · cases segment
    · rename_i plain
      cases segment
      rintro rfl
      exact plain rfl

/-- What is done for a key that was admitted. The key has no part in it. -/
def admitted (s : Settings) (body : Bytes) : Action (Except Escape Response) := do
  let engine ← s.engine
  ExceptT.lift ((Methods.dispatcher engine).handle body)

/-- What follows the look-up of a key. -/
def afterLookup (s : Settings) (body : Bytes) (found : Except StoreFault (Option ApiKey)) :
    Program (Except Failure (Except Escape Response)) :=
  match Gate.admission found with
  | .error failure => .done (.error failure)
  | .ok _ => (admitted s body).run

theorem post_eq {s : Settings} (opens : s.storeFault? = none) {key : Text} (named : key ≠ [])
    {body : Bytes} (full : body ≠ []) :
    (post s key body).run = .ask (.findKey key) (afterLookup s body) := by
  obtain ⟨c, rest, rfl⟩ := List.exists_cons_of_ne_nil named
  obtain ⟨b, more, rfl⟩ := List.exists_cons_of_ne_nil full
  unfold post Settings.store
  rw [opens]
  refine congrArg (Program.ask (.findKey (c :: rest))) (funext fun found => ?_)
  show (Program.done (Gate.admission found)).bind _ = afterLookup s (b :: more) found
  unfold afterLookup
  rcases Gate.admission found with failure | row
  · rfl
  · rfl

/-- Without a store nothing is asked. -/
theorem post_unopened {s : Settings} {message : Text} (fault : s.storeFault? = some message)
    (key : Text) (body : Bytes) : (post s key body).run = .done (.error (.unopened message)) := by
  unfold post Settings.store
  rw [fault]
  rfl

/-- The answer that an outcome is really sent as. -/
def sentOf (outcome : Except Failure (Except Escape Response)) : Answer :=
  (answerOf outcome).sent

theorem respond_root (s : Settings) {r : Http.Request} {key : Text} (posted : Posted r key)
    (root : Path.isAt Path.root r.path = true) : respond s r = .done keyMissing.sent := by
  unfold respond route
  rw [if_pos ⟨root, posted.verb⟩]
  rfl

/-- What a body leads to on the path of a key, be it empty or not. -/
theorem respond_post (s : Settings) {r : Http.Request} {key : Text} (posts : r.verb = "POST")
    (beyond : Path.isAt Path.root r.path = false) (segment : Path.segment? r.path = some key) :
    respond s r = sentOf <$> (post s key r.body).run := by
  have notHealth : ¬(Path.isAt Path.health r.path = true ∧ r.verb = "GET") := by
    rw [posts]
    exact fun given => absurd given.2 (by decide)
  unfold respond route
  rw [if_neg (by simp [beyond]), if_neg notHealth, segment]
  simp only [if_pos posts, map_eq_pure_bind, Program.bind_def, Program.bind_assoc]
  rfl

theorem respond_key {s : Settings} (opens : s.storeFault? = none) {r : Http.Request} {key : Text}
    (posted : Posted r key) (beyond : Path.isAt Path.root r.path = false) :
    respond s r = .ask (.findKey key) fun found => sentOf <$> afterLookup s r.body found := by
  have named := ne_nil_of_segment? posted.path
  rw [respond_post s posted.verb beyond posted.path, post_eq opens named posted.body]
  rfl

/-! ## Refusals -/

/-- The answer to a caller without a key that is admitted. -/
def refusal (message data : Text) : Answer :=
  .ofResponse (.ofError { kind := .parse, message, data := .text data })

theorem sent_of_bytes {a : Answer} (encoded : a.body.bytes.toBool = true) : a.sent = a := by
  unfold Answer.sent
  split
  · rfl
  · rename_i fault failed
    rw [failed] at encoded
    cases encoded

theorem sent_internal : Answer.internal.sent = .internal :=
  sent_of_bytes (by decide +kernel)

theorem sent_keyMissing : keyMissing.sent = refusal "Key error" "No key" :=
  sent_of_bytes (by decide +kernel)

theorem sentOf_rejected : sentOf (.error Gate.rejected) = refusal "Key error" "Apikey error" :=
  sent_of_bytes (by decide +kernel)

theorem sentOf_lookupFailed :
    sentOf (.error Gate.lookupFailed) = refusal "Database error" "Query apikey error" :=
  sent_of_bytes (by decide +kernel)

/-- A request without effect: the caller gets an error envelope with the code of unreadable
requests and without an identifier, and everything stays as it was, among it the accounts, the
keys, the statistics, the questions that the node was asked and what the lock server saw. -/
structure TurnedAway (w : Surroundings) (outcome : Answer × Surroundings) : Prop where
  status : outcome.1.status = 200
  envelope : ∃ message data, outcome.1.body = .json (.object
    [("jsonrpc", .text "2.0"), ("id", .null),
     ("error", .object [("code", .int (-32700)), ("message", message), ("data", data)])])
  unchanged : outcome.2 = w

theorem turnedAway_refusal (w : Surroundings) (message data : Text) :
    TurnedAway w (refusal message data, w) :=
  ⟨rfl, ⟨.text message, .text data, rfl⟩, rfl⟩

/-- A run that is over with the look-up of the key. -/
theorem run_of_error {s : Settings} (opens : s.storeFault? = none) {w : Surroundings}
    {r : Http.Request} {key : Text} {failure : Failure} (posted : Posted r key)
    (beyond : Path.isAt Path.root r.path = false)
    (refused : Gate.admission (w.findKey key) = .error failure) :
    w.run (respond s r) = (sentOf (.error failure), w) := by
  have ended : afterLookup s r.body (w.findKey key) = .done (.error failure) := by
    rw [afterLookup, refused]
  rw [respond_key opens posted beyond]
  show (sentOf <$> afterLookup s r.body (w.findKey key)).run Surroundings.answer w = _
  rw [ended]
  rfl

theorem run_of_refuses {s : Settings} (opens : s.storeFault? = none) {w : Surroundings}
    {r : Http.Request} {key : Text} (posted : Posted r key)
    (beyond : Path.isAt Path.root r.path = false) (refuses : w.Refuses key) :
    w.run (respond s r) = (refusal "Key error" "Apikey error", w) := by
  obtain ⟨found, looked, disabled⟩ := refuses
  have refused : Gate.admission (w.findKey key) = .error Gate.rejected := by
    rw [looked]
    exact Gate.admission_refused disabled
  rw [run_of_error opens posted beyond refused, sentOf_rejected]

theorem turnedAway_of_bars {s : Settings} (opens : s.storeFault? = none) {w : Surroundings}
    {r : Http.Request} {key : Text} (posted : Posted r key) (barred : w.Bars key) :
    TurnedAway w (w.run (respond s r)) := by
  cases root : Path.isAt Path.root r.path with
  | true =>
    rw [respond_root s posted root, sent_keyMissing]
    exact turnedAway_refusal w _ _
  | false =>
    rcases Gate.admission_error fun row => barred.not_enabled with failed | rejected
    · rw [run_of_error opens posted root failed, sentOf_lookupFailed]
      exact turnedAway_refusal w _ _
    · rw [run_of_error opens posted root rejected, sentOf_rejected]
      exact turnedAway_refusal w _ _

/-! ## Admission -/

/-- A request that comes first and looks the key up, or comes after an enabled row. -/
def LooksUpFirst (key : Text) (h : List Exchange) (request : Request) : Prop :=
  (h = [] ∧ request = .findKey key) ∨
    ∃ row rest, h = ⟨.findKey key, .ok (some row)⟩ :: rest ∧ row.enabled = true

/-- Whatever the surroundings answer, nothing but the key is asked for before an enabled row. -/
theorem follows_respond {s : Settings} (opens : s.storeFault? = none) {r : Http.Request}
    {key : Text} (posted : Posted r key) :
    (respond s r).Follows (LooksUpFirst key) fun _ _ => True := by
  cases root : Path.isAt Path.root r.path with
  | true =>
    rw [respond_root s posted root]
    trivial
  | false =>
    rw [respond_key opens posted root]
    refine ⟨.inl ⟨rfl, rfl⟩, fun found => (Program.follows_map _ _).mpr ?_⟩
    unfold afterLookup
    by_cases enabled : ∃ row, found = .ok (some row) ∧ row.enabled = true
    · obtain ⟨row, rfl, enabled⟩ := enabled
      rw [Gate.admission_enabled enabled]
      exact (Program.follows_any _).mono (fun h _ _ => .inr ⟨row, h, rfl, enabled⟩)
        fun _ _ _ => trivial
    · have disabled : ∀ row, found = .ok (some row) → row.enabled = false := by
        intro row same
        by_contra on
        exact enabled ⟨row, same, by simpa using on⟩
      rcases Gate.admission_error disabled with failed | rejected
      · rw [failed]
        trivial
      · rw [rejected]
        trivial

/-- Past an enabled row a request runs as its body asks. -/
theorem run_of_admits {s : Settings} (opens : s.storeFault? = none) {w : Surroundings}
    {r : Http.Request} {key : Text} (posted : Posted r key)
    (beyond : Path.isAt Path.root r.path = false) (admits : w.Admits key) :
    w.run (respond s r) = w.run (sentOf <$> (admitted s r.body).run) := by
  obtain ⟨row, looked, enabled⟩ := admits
  have goesOn : afterLookup s r.body (w.findKey key) = (admitted s r.body).run := by
    rw [afterLookup, looked, Gate.admission_enabled enabled]
  rw [respond_key opens posted beyond]
  show (sentOf <$> afterLookup s r.body (w.findKey key)).run Surroundings.answer w = _
  rw [goesOn]
  rfl

/-- The libraries do their part: the store is opened, and the address of a request is split. -/
structure Serves (splits : Text → Text → Bool) (s : Settings) (r : Http.Request) : Prop where
  store : s.storeFault? = none
  split : splits r.host r.path = true

variable {splits : Text → Text → Bool}

theorem Serves.serve {s : Settings} {r : Http.Request} (serves : Serves splits s r) :
    serve splits s r = respond s r :=
  if_pos serves.split

/-- Where they do not, nothing is asked, and no key makes a difference. -/
theorem serve_of_not_serves {s : Settings} {r : Http.Request} {key : Text}
    (out : ¬Serves splits s r) (posted : Posted r key)
    (beyond : Path.isAt Path.root r.path = false) : serve splits s r = .done .internal := by
  unfold serve
  cases split : splits r.host r.path with
  | false => rfl
  | true =>
    obtain ⟨message, fault⟩ := Option.ne_none_iff_exists'.mp fun opens => out ⟨opens, split⟩
    rw [if_pos rfl, respond_post s posted.verb beyond posted.path, post_unopened fault]
    show Program.done Answer.internal.sent = _
    rw [sent_internal]

/-- A key that is barred has no effect; nothing is asked before an enabled row is found. Of two
requests on one route, neither an unknown nor a disabled key is told from the other, whatever
the bodies, and two keys that are admitted are not told apart in the answer or in what is left
behind. All this is so if the store is opened and the address is split; otherwise every key gets
the answer of a failure that is not meant for the caller, and has no effect either. -/
theorem admission_decides (splits : Text → Text → Bool) (s : Settings) {r : Http.Request}
    {key : Text} (posted : Posted r key) :
    (Serves splits s r →
      (∀ w : Surroundings, w.Bars key → TurnedAway w (w.run (serve splits s r))) ∧
      ((serve splits s r).Follows (LooksUpFirst key) fun _ _ => True) ∧
      ∀ r' key', Posted r' key' → Path.isAt Path.root r.path = Path.isAt Path.root r'.path →
        (∀ (s' : Settings) (w w' : Surroundings), Serves splits s' r' →
          w.Refuses key → w'.Refuses key' →
            (w.run (serve splits s r)).1 = (w'.run (serve splits s' r')).1) ∧
        (∀ w : Surroundings, Serves splits s r' → w.Admits key → w.Admits key' →
          r.body = r'.body → w.run (serve splits s r) = w.run (serve splits s r'))) ∧
    (¬Serves splits s r → Path.isAt Path.root r.path = false →
      serve splits s r = .done .internal) := by
  refine ⟨fun serves => ?_, fun out => serve_of_not_serves out posted⟩
  have opens := serves.store
  rw [serves.serve]
  refine ⟨fun w => turnedAway_of_bars opens posted, follows_respond opens posted, ?_⟩
  intro r' key' posted' sameRoute
  cases root : Path.isAt Path.root r.path with
  | true =>
    have root' := sameRoute.symm.trans root
    refine ⟨fun s' w w' serves' _ _ => ?_, fun w serves' _ _ _ => ?_⟩
    · rw [serves'.serve, respond_root s posted root, respond_root s' posted' root']
      rfl
    · rw [serves'.serve, respond_root s posted root, respond_root s posted' root']
  | false =>
    have beyond := sameRoute.symm.trans root
    refine ⟨fun s' w w' serves' refuses refuses' => ?_,
      fun w serves' admits admits' sameBody => ?_⟩
    · rw [serves'.serve, run_of_refuses opens posted root refuses,
        run_of_refuses serves'.store posted' beyond refuses']
    · rw [serves'.serve, run_of_admits opens posted root admits,
        run_of_admits serves'.store posted' beyond admits', sameBody]

/-- A body, not even an object, that is posted to the path of a key. -/
def bracePosted (key : Text) : Http.Request :=
  { host := "localhost", verb := "POST", path := '/' :: key, body := [0x7b] }

theorem posted_brace {key : Text} (segment : Path.segment? ('/' :: key) = some key) :
    Posted (bracePosted key) key :=
  ⟨rfl, segment, List.cons_ne_nil _ _⟩

/-- A service with two enabled keys and a disabled one. -/
def threeKeys : Surroundings :=
  { clock := 0
    keys := [{ key := "first" }, { key := "second" }, { key := "third", enabled := false }] }

/-- Brackets in a host come in pairs. -/
def pairsBrackets (host _path : Text) : Bool :=
  host.contains '[' == host.contains ']'

/-- A service without a signing key: the disabled key is refused like an unknown one before
that is noticed, and the enabled keys give the same. With half a pair of brackets for a host, an
enabled key is no better than any other. -/
theorem admission_decides_three_keys :
    TurnedAway threeKeys (threeKeys.run (serve pairsBrackets {} (bracePosted "third"))) ∧
    (threeKeys.run (serve pairsBrackets {} (bracePosted "third"))).1 =
      (threeKeys.run (serve pairsBrackets {} (bracePosted "fourth"))).1 ∧
    threeKeys.run (serve pairsBrackets {} (bracePosted "first")) =
      threeKeys.run (serve pairsBrackets {} (bracePosted "second")) ∧
    serve pairsBrackets {} { bracePosted "first" with host := "[" } = .done .internal := by
  have third : Posted (bracePosted "third") "third" := posted_brace (by decide)
  have fourth : Posted (bracePosted "fourth") "fourth" := posted_brace (by decide)
  have first : Posted (bracePosted "first") "first" := posted_brace (by decide)
  have second : Posted (bracePosted "second") "second" := posted_brace (by decide)
  have whole : pairsBrackets "localhost" [] = true := by decide
  have serves (key : Text) : Serves pairsBrackets {} (bracePosted key) := ⟨rfl, whole⟩
  have disabled : threeKeys.Refuses "third" := ⟨some _, rfl, by simp⟩
  have unknown : threeKeys.Refuses "fourth" := ⟨none, rfl, by simp⟩
  have third_decides := (admission_decides pairsBrackets {} third).1 (serves _)
  have first_decides := (admission_decides pairsBrackets {} first).1 (serves _)
  refine ⟨third_decides.1 threeKeys (.inl (by decide)), ?_, ?_, ?_⟩
  · exact (third_decides.2.2 _ _ fourth (by decide)).1 {} _ _ (serves _) disabled unknown
  · exact (first_decides.2.2 _ _ second (by decide)).2 _ (serves _)
      ⟨_, rfl, rfl⟩ ⟨_, rfl, rfl⟩ rfl
  · have open_bracket : Posted { bracePosted "first" with host := "[" } "first" :=
      ⟨rfl, by decide, by decide⟩
    exact (admission_decides pairsBrackets {} open_bracket).2
      (fun serves => absurd serves.split (by decide)) (by decide)

/-- Settings with an address that names no database. -/
def unopened : Settings :=
  { storeFault? := some "Could not parse SQLAlchemy URL from string ''" }

/-- A service with two enabled keys, one of which is a line feed. -/
def lineFeedKey : Surroundings :=
  { clock := 0, keys := [{ key := "first" }, { key := "\n" }] }

/-- A key does not decide everywhere. Where the store cannot be opened, one that is barred gets the
answer of a failure; and of two enabled keys the one that is a line feed is told from the other. -/
theorem not_decides_line_feed :
    (Posted (bracePosted "fourth") "fourth" ∧ threeKeys.Bars "fourth" ∧
      ¬TurnedAway threeKeys
        (threeKeys.run (serve pairsBrackets unopened (bracePosted "fourth")))) ∧
    (Posted (bracePosted "\n") "\n" ∧ lineFeedKey.Admits "\n") ∧
    (Posted (bracePosted "first") "first" ∧ lineFeedKey.Admits "first") ∧
    (lineFeedKey.run (serve pairsBrackets {} (bracePosted "\n"))).1 ≠
      (lineFeedKey.run (serve pairsBrackets {} (bracePosted "first"))).1 := by
  have fourth : Posted (bracePosted "fourth") "fourth" := posted_brace (by decide)
  have barred : threeKeys.Bars "fourth" := .inl (by decide)
  refine ⟨⟨fourth, barred, fun turned => ?_⟩,
    ⟨posted_brace (by decide), ⟨_, rfl, rfl⟩⟩, ⟨posted_brace (by decide), ⟨_, rfl, rfl⟩⟩,
    fun same => ?_⟩
  · have out : ¬Serves pairsBrackets unopened (bracePosted "fourth") :=
      fun serves => absurd serves.store (by decide)
    rw [serve_of_not_serves out fourth (by decide)] at turned
    obtain ⟨message, data, envelope⟩ := turned.envelope
    cases envelope
  · exact absurd (congrArg Answer.echoesId same) (by decide +kernel)

end Endpoint

end Paymaster

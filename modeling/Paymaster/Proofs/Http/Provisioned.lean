import Paymaster.Proofs.Access.Provisioning
import Paymaster.Proofs.Http.Metrics

/-!
# Keys at the endpoints they were announced for

A request for a key promises (`Endpoint.Announced`): a key that is there comes back as it is,
otherwise one enabled row is added, and a body that is later posted to the endpoint that was
printed for a new key is handed to the dispatcher, unless the row was switched off.

The promise is kept exactly if the texts have encodings, a key that is drawn is new, an engine
can be made, and the key that is asked for is one segment of a path and not a line feed
(`Endpoint.announced_iff`). The request itself does not look at the last: a key with a slash in
it is created, and its endpoint is not found (`Endpoint.not_announced_slash`).
-/

namespace Paymaster

open Http

/-! ## Endpoints as paths -/

namespace Path

theorem segment?_endpoint {key : Text} (named : key ≠ []) (plain : ('/' : CodePoint) ∉ key) :
    segment? (Provision.endpoint key) = some key := by
  have rest : Text.after? ['/'] (Provision.endpoint key) = some key := by
    simp [Provision.endpoint, Text.after?]
  unfold segment?
  rw [rest]
  simp [named, plain]

theorem segment?_endpoint_slash {key : Text} (slash : ('/' : CodePoint) ∈ key) :
    segment? (Provision.endpoint key) = none := by
  have rest : Text.after? ['/'] (Provision.endpoint key) = some key := by
    simp [Provision.endpoint, Text.after?]
  unfold segment?
  rw [rest]
  simp [slash]

theorem isAt_root_endpoint {key : Text} (named : key ≠ []) :
    isAt root (Provision.endpoint key) = true ↔ key = "\n" := by
  have slash : root = ['/'] := rfl
  simp [isAt, slash, Provision.endpoint, named]

end Path

namespace Endpoint

/-! ## What is promised -/

/-- A request is handed to the dispatcher while the table of keys is as it is: a key is looked up
first, and with what the table has for it the dispatcher of a new engine handles the body. -/
def Reaches (s : Settings) (t : KeyTable) (r : Http.Request) : Prop :=
  ∃ (key : Text) (next : _ → Program Answer) (made : LockSource → Engine),
    respond s r = .ask (.findKey key) next ∧
    s.engine.run = .ask .joinLocks (fun locks => .done (.ok (made locks))) ∧
    next ((t.lookUp key).mapError Surroundings.keyFault) = .ask .joinLocks fun locks =>
      (fun outcome => sentOf (.ok outcome)) <$> (Methods.dispatcher (made locks)).handle r.body

/-- What a request for a key promises. -/
structure Announced (s : Settings) (t : KeyTable) (name : Text) (key? : Option Text)
    (draw : Draw) : Prop where
  existing : ∀ key row, key? = some key → t.row? key = some row →
    Provision.run t name key? draw.key = .ok (t, .existing row)
  added : (∀ key, key? = some key → t.row? key = none) →
    ∃ row, Provision.run t name key? draw.key = .ok (t ++ [row], .created row) ∧
      row.name = some name ∧ row.enabled = true
  reaches : ∀ t' row, Provision.run t name key? draw.key = .ok (t', .created row) →
    ∀ later, .switch row.key false ∉ later →
      ∀ r : Http.Request, r.verb = "POST" → r.path = Provision.endpoint row.key → r.body ≠ [] →
        Reaches s (t'.after later) r

/-- When the promise is kept. -/
structure Reachable (s : Settings) (t : KeyTable) (name : Text) (key? : Option Text)
    (draw : Draw) : Prop where
  encoded : ∀ key, key? = some key → Utf8.surrogates? key = none
  added : (∀ key, key? = some key → t.row? key = none) →
    Utf8.surrogates? name = none ∧ t.row? (Provision.newRow name key? draw.key).key = none ∧
      assembles s = true
  plain : ∀ key, key? = some key → t.row? key = none →
    ('/' : CodePoint) ∉ key ∧ key ≠ "\n"

/-! ## The way to the dispatcher -/

variable {s : Settings} {t : KeyTable} {r : Http.Request} {key : Text}

/-- What is posted elsewhere than to the root or the path of a key is answered at once. -/
theorem respond_elsewhere (s : Settings) (posts : r.verb = "POST")
    (beyond : Path.isAt Path.root r.path = false) (noSegment : Path.segment? r.path = none) :
    respond s r = .done (unserved r).sent := by
  have noHealth : ¬(Path.isAt Path.health r.path = true ∧ r.verb = "GET") := by
    rw [posts]
    exact fun given => absurd given.2 (by decide)
  unfold respond route
  rw [if_neg (by simp [beyond]), if_neg noHealth, noSegment]
  rfl

theorem assembles_iff : assembles s = true ↔ s.storeFault? = none ∧ makesEngine s = true := by
  rw [assembles, Bool.and_eq_true, Option.isNone_iff_eq_none]

/-- Behind an enabled row an engine is made, and then its dispatcher has the body. -/
theorem reaches_of_enabled (assembled : assembles s = true) (posted : Posted r key)
    (beyond : Path.isAt Path.root r.path = false) (encoded : Utf8.surrogates? key = none)
    (enabled : t.Enabled key) : Reaches s t r := by
  obtain ⟨row, found, on⟩ := enabled
  have looked : t.lookUp key = .ok (some row) := by
    rw [KeyTable.lookUp, encoded, found]
  obtain ⟨opens, makes⟩ := assembles_iff.mp assembled
  have made := run_engine s
  rw [makes] at made
  obtain ⟨made, -, engine⟩ := made
  refine ⟨key, _, made, respond_key opens posted beyond, engine, ?_⟩
  rw [looked]
  show sentOf <$> afterLookup s r.body (.ok (some row)) = _
  rw [afterLookup, Gate.admission_enabled on]
  show sentOf <$> (admitted s r.body).run = _
  have goesOn : (admitted s r.body).run = .ask .joinLocks fun locks =>
      Except.ok <$> (Methods.dispatcher (made locks)).handle r.body := by
    show s.engine.run.bind _ = _
    rw [engine]
    rfl
  rw [goesOn]
  refine congrArg (Program.ask .joinLocks) (funext fun locks => ?_)
  show sentOf <$> Except.ok <$> (Methods.dispatcher (made locks)).handle r.body = _
  rw [Functor.map_map]

/-- Without a key in its path a request is answered at once. -/
theorem not_reaches_of_done {a : Answer} (answered : respond s r = .done a) : ¬Reaches s t r := by
  intro ⟨key, next, made, asked, _⟩
  rw [answered] at asked
  cases asked

/-- What is posted asks for something only if the store is opened. -/
theorem opens_of_asks (posts : r.verb = "POST") {request : Request}
    {next : request.Answer → Program Answer} (asks : respond s r = .ask request next) :
    s.storeFault? = none := by
  cases fault : s.storeFault? with
  | none => rfl
  | some message =>
    cases root : Path.isAt Path.root r.path with
    | true =>
      unfold respond route at asks
      rw [if_pos ⟨root, posts⟩] at asks
      cases asks
    | false =>
      cases segment : Path.segment? r.path with
      | some key =>
        rw [respond_post s posts root segment, post_unopened fault] at asks
        cases asks
      | none =>
        rw [respond_elsewhere s posts root segment] at asks
        cases asks

theorem Reaches.assembles (reaches : Reaches s t r) (posts : r.verb = "POST") :
    assembles s = true := by
  obtain ⟨key, next, made, asked, engine, -⟩ := reaches
  refine assembles_iff.mpr ⟨opens_of_asks posts asked, ?_⟩
  have other := run_engine s
  cases makes : makesEngine s with
  | true => rfl
  | false =>
    rw [makes] at other
    obtain ⟨failure, failed⟩ := other
    rw [failed] at engine
    cases engine

/-- What is posted to the endpoint of a key is handed to the dispatcher only if the key is one
segment of a path and not a line feed. -/
theorem Reaches.plain (reaches : Reaches s t r) (posts : r.verb = "POST")
    (path : r.path = Provision.endpoint key) : ('/' : CodePoint) ∉ key ∧ key ≠ "\n" := by
  constructor
  · intro slash
    have beyond : Path.isAt Path.root r.path = false := by
      have named : key ≠ [] := List.ne_nil_of_mem slash
      rw [path, Bool.eq_false_iff, ne_eq, Path.isAt_root_endpoint named]
      rintro rfl
      exact absurd slash (by decide)
    have noSegment : Path.segment? r.path = none := by
      rw [path, Path.segment?_endpoint_slash slash]
    exact not_reaches_of_done (respond_elsewhere s posts beyond noSegment) reaches
  · intro feed
    have root : Path.isAt Path.root r.path = true := by
      rw [path, Path.isAt_root_endpoint (by rw [feed]; decide)]
      exact feed
    refine not_reaches_of_done (a := keyMissing.sent) ?_ reaches
    unfold respond route
    rw [if_pos ⟨root, posts⟩]
    rfl

/-! ## The promise -/

variable {name : Text} {key? : Option Text} {draw : Draw}

theorem newRow_key_ne_nil (name : Text) (key? : Option Text) (draw : Draw) :
    (Provision.newRow name key? draw.key).key ≠ [] := by
  unfold Provision.newRow
  split
  · exact List.cons_ne_nil _ _
  · exact draw.key_ne_nil

/-- The key of a new row is the one that is asked for, or one that is drawn. -/
theorem newRow_key_cases (name : Text) (key? : Option Text) (draw : Draw) :
    key? = some (Provision.newRow name key? draw.key).key ∨
      (Provision.newRow name key? draw.key).key = draw.key := by
  unfold Provision.newRow
  split
  · exact .inl rfl
  · exact .inr rfl

/-- The key of a new row has an encoding, if that holds for the key that is asked for. -/
theorem newRow_encoded (encoded : ∀ key, key? = some key → Utf8.surrogates? key = none) :
    KeyTable.surrogates? (Provision.newRow name key? draw.key) = none ↔
      Utf8.surrogates? name = none := by
  have keyEncoded : Utf8.surrogates? (Provision.newRow name key? draw.key).key = none := by
    rcases newRow_key_cases name key? draw with asked | drawn
    · exact encoded _ asked
    · rw [drawn]
      exact draw.surrogates?_key
  rw [KeyTable.surrogates?_eq_none_iff]
  constructor
  · exact fun both => both.2 name rfl
  · intro nameEncoded
    refine ⟨keyEncoded, fun name' same => ?_⟩
    cases same
    exact nameEncoded

/-- Without a key that is there, a row is added exactly if the name has an encoding and the key
of the row is new. -/
theorem run_eq_created_iff (encoded : ∀ key, key? = some key → Utf8.surrogates? key = none)
    (absent : ∀ key, key? = some key → t.row? key = none) {t' : KeyTable} {row : ApiKey} :
    Provision.run t name key? draw.key = .ok (t', .created row) ↔
      Utf8.surrogates? name = none ∧ t.row? row.key = none ∧ t' = t ++ [row] ∧
        row = Provision.newRow name key? draw.key := by
  rw [Provision.run_of_absent encoded absent]
  cases added : t.insert (Provision.newRow name key? draw.key) with
  | error fault =>
    refine ⟨fun created => (nomatch created), fun ⟨nameEncoded, new, _, same⟩ => ?_⟩
    subst same
    have fits := KeyTable.insert_eq_ok_iff.mpr ⟨(newRow_encoded encoded).mpr nameEncoded, new, rfl⟩
    rw [added] at fits
    cases fits
  | ok t'' =>
    obtain ⟨rowEncoded, new, rfl⟩ := KeyTable.insert_eq_ok_iff.mp added
    constructor
    · intro created
      cases created
      exact ⟨(newRow_encoded encoded).mp rowEncoded, new, rfl, rfl⟩
    · intro ⟨_, _, table, same⟩
      subst same table
      rfl

/-- If a key can be drawn, the key of a new row is one segment of a path and no line feed. -/
theorem newRow_plain
    (plain : ∀ key, key? = some key → ('/' : CodePoint) ∉ key ∧ key ≠ "\n") :
    ('/' : CodePoint) ∉ (Provision.newRow name key? draw.key).key ∧
      (Provision.newRow name key? draw.key).key ≠ "\n" := by
  rcases newRow_key_cases name key? draw with asked | drawn
  · exact plain _ asked
  · rw [drawn]
    have letters : (KeyFile.letters.all fun c => c != '/' && c != '\n') = true := by decide +kernel
    constructor
    · intro slash
      simpa using List.all_eq_true.mp letters _ (Draw.mem_key slash)
    · intro feed
      have member : ('\n' : CodePoint) ∈ draw.key := by
        rw [feed]
        exact List.mem_singleton.mpr rfl
      simpa using List.all_eq_true.mp letters _ (Draw.mem_key member)

/-- A body that is posted to the endpoint of a key. -/
def bodyPosted (key : Text) : Http.Request :=
  { host := "localhost", verb := "POST", path := Provision.endpoint key, body := [0x7b] }

theorem reachable_of_announced (announced : Announced s t name key? draw) :
    Reachable s t name key? draw := by
  have encoded : ∀ key, key? = some key → Utf8.surrogates? key = none := by
    intro key asked
    subst asked
    cases found : Utf8.surrogates? key with
    | none => rfl
    | some bad =>
      have failed := Provision.run_of_unencodable (t := t) found name draw.key
      cases there : t.row? key with
      | some row =>
        have returned := announced.existing key row rfl there
        rw [failed] at returned
        cases returned
      | none =>
        obtain ⟨row, created, -⟩ := announced.added fun key' same => by cases same; exact there
        rw [failed] at created
        cases created
  have made (absent : ∀ key, key? = some key → t.row? key = none) :
      Utf8.surrogates? name = none ∧ t.row? (Provision.newRow name key? draw.key).key = none ∧
        Reaches s (t ++ [Provision.newRow name key? draw.key])
          (bodyPosted (Provision.newRow name key? draw.key).key) := by
    obtain ⟨row, created, -⟩ := announced.added absent
    obtain ⟨nameEncoded, new, -, rfl⟩ := (run_eq_created_iff encoded absent).mp created
    exact ⟨nameEncoded, new, announced.reaches _ _ created [] List.not_mem_nil
      (bodyPosted _) rfl rfl (List.cons_ne_nil _ _)⟩
  refine ⟨encoded, fun absent => ?_, fun key asked there => ?_⟩
  · obtain ⟨nameEncoded, new, reaches⟩ := made absent
    exact ⟨nameEncoded, new, reaches.assembles rfl⟩
  · have absent : ∀ key', key? = some key' → t.row? key' = none := by
      intro key' asked'
      cases asked.symm.trans asked'
      exact there
    obtain ⟨-, -, reaches⟩ := made absent
    cases key with
    | nil => exact ⟨List.not_mem_nil, by decide⟩
    | cons c rest =>
      subst asked
      exact reaches.plain rfl rfl

/-- A request for a key keeps its promise exactly if the texts have encodings, a key that is
drawn is new, an engine can be made, and the key that is asked for fits an endpoint. The endpoint
that is printed stands for the path that a request arrives under, which has been unescaped by then:
a caller has to escape the question marks, number signs and percent signs of a key. -/
theorem announced_iff (s : Settings) (t : KeyTable) (name : Text) (key? : Option Text)
    (draw : Draw) : Announced s t name key? draw ↔ Reachable s t name key? draw := by
  refine ⟨reachable_of_announced, fun reachable => ?_⟩
  have encoded := reachable.encoded
  constructor
  case existing =>
    intro key row asked found
    subst asked
    exact Provision.run_of_found (encoded key rfl) found name draw.key
  case added =>
    intro absent
    obtain ⟨nameEncoded, new, -⟩ := reachable.added absent
    exact ⟨_, (run_eq_created_iff encoded absent).mpr ⟨nameEncoded, new, rfl, rfl⟩, rfl, rfl⟩
  case reaches =>
    intro t' row created later on r posts path full
    have absent : ∀ key, key? = some key → t.row? key = none := by
      intro key asked
      subst asked
      cases there : t.row? key with
      | none => rfl
      | some found =>
        rw [Provision.run_of_found (encoded key rfl) there] at created
        cases created
    obtain ⟨-, new, rfl, rfl⟩ := (run_eq_created_iff encoded absent).mp created
    obtain ⟨nameEncoded, -, assembled⟩ := reachable.added absent
    let row := Provision.newRow name key? draw.key
    have unasked (key : Text) (asked : key? = some key) : ('/' : CodePoint) ∉ key ∧ key ≠ "\n" :=
      reachable.plain key asked (absent key asked)
    have ⟨noSlash, noFeed⟩ : ('/' : CodePoint) ∉ row.key ∧ row.key ≠ "\n" := newRow_plain unasked
    have named := newRow_key_ne_nil name key? draw
    have posted : Posted r (Provision.newRow name key? draw.key).key :=
      ⟨posts, by rw [path, Path.segment?_endpoint named noSlash], full⟩
    have beyond : Path.isAt Path.root r.path = false := by
      rw [path, Bool.eq_false_iff, ne_eq, Path.isAt_root_endpoint named]
      exact noFeed
    have rowEncoded : KeyTable.surrogates? row = none := (newRow_encoded encoded).mpr nameEncoded
    have keyEncoded := (KeyTable.surrogates?_eq_none_iff.mp rowEncoded).1
    have enabled : KeyTable.Enabled (t ++ [Provision.newRow name key? draw.key])
        (Provision.newRow name key? draw.key).key :=
      ⟨_, KeyTable.row?_append_self new, rfl⟩
    exact reaches_of_enabled assembled posted beyond keyEncoded (enabled.after on)

/-- Random bytes that are all zero. -/
def zeroDraw : Draw :=
  ⟨Bytes.zeros 24, by decide⟩

/-- With a signing key and nothing in the table, a key with a slash in it is created, and what is
posted to its endpoint does not reach the dispatcher. -/
theorem not_announced_slash :
    assembles keyed = true ∧ ¬Announced keyed [] "n" (some "a/b") zeroDraw := by
  refine ⟨by decide +kernel, fun announced => ?_⟩
  have plain := (reachable_of_announced announced).plain "a/b" rfl rfl
  exact absurd plain (by decide)

end Endpoint

end Paymaster

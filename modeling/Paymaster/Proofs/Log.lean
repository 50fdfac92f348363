import Paymaster.Log
import Paymaster.Proofs.Json.Printed

/-!
# Log lines lose nothing

A record says a map: the text of its exception, over the extra members that are shown, over its
message, over its time, level and logger (`Log.told`). A line loses nothing if it is one line of
what is printed and is read as that map (`Log.Lossless`). A record has a line exactly if its message
is found and its members can be written (`Log.log_eq_ok_iff`), and then one line only; what the
line is read as is the map with high surrogates joined to the low ones behind them. So nothing is
lost exactly if the record is legible (`Log.lossless_iff`). A text that opens a brace before an
integer of too many digits has no line (`Log.not_lossless_long`).
-/

namespace Paymaster.Log

/-! ## The map of a record -/

/-- The members of a text that is an object in written form. -/
def readObject? (t : Text) : Option (Entries Text Json) :=
  if t.head? = some ('{' : CodePoint) then
    match Json.read t with
    | .ok (.object members) => some members
    | _ => none
  else none

/-- A text as a member of its own. -/
def whole (t : Text) : Entries Text Json :=
  [("message", .text t)]

/-- The members that a message stands for: its own if it is an object or reads as one, otherwise
its whole text. -/
def said : Json → Entries Text Json
  | .object members => members
  | .text t => (readObject? t).getD (whole t)
  | message => whole message.display

/-- The members of a record, those first that take the place of those behind. -/
def layers (r : Record) : List (Entries Text Json) :=
  [r.exception.toList.map fun t => ("exception", .text t),
   r.extra.filter fun m => m.1.head? ≠ some ('_' : CodePoint),
   said r.message,
   [("timestamp", .text r.time), ("level", .text r.level.word), ("logger", .text r.logger)]]

/-- What a record says under a name. -/
def told (r : Record) (name : Text) : Option Json :=
  (layers r).findSome? (List.lookup name)

/-! ## What a line keeps -/

/-- A record of information or above with a text or an object as its message, and without an
extra member under a name that a record has of its own. -/
structure Loggable (r : Record) : Prop where
  level : r.level ≠ .debug
  message : (∃ t, r.message = .text t) ∨ ∃ members, r.message = .object members ∧
    (Json.object members).Proper ∧ (Json.object members).isWritten = true
  free : ∀ m ∈ r.extra, m.1 ∉ reservedNames
  extra : (Json.object r.extra).Proper

theorem Loggable.object {r : Record} (loggable : Loggable r) {members : Entries Text Json}
    (object : r.message = .object members) :
    (Json.object members).Proper ∧ (Json.object members).isWritten = true := by
  rcases loggable.message with ⟨t, text⟩ | ⟨own, same, proper, written⟩
  · cases object.symm.trans text
  · cases object.symm.trans same
    exact ⟨proper, written⟩

/-- A record has one line, which is one line of what is printed and is read as what the record
says; and a message that is an object is read as it was written. -/
structure Lossless (r : Record) : Prop where
  line : ∃ line members, log r = .ok [line] ∧ (Text.ofLines [line]).lines = [line] ∧
    Json.read line = .ok (.object members) ∧ ∀ name, List.lookup name members = told r name
  message : ∀ members, r.message = .object members →
    Json.read (Json.write (.object members)) = .ok (.object members)

/-- A record whose message is found: no integer in it is too long, and unless it reads as an object
nothing stands in the place of what writes it. -/
structure Found (r : Record) : Prop where
  short : ∀ t, r.message = .text t → t.head? = some ('{' : CodePoint) →
    ∀ n, Json.read t ≠ .error (.integerTooLong n)
  writer : ∀ t, r.message = .text t → readObject? t = none →
    Entries.value? r.extra messageWriter = none

/-- A record whose message is found, and in whose map no integer has too many digits and no high
surrogate stands before a low one. -/
structure Legible (r : Record) : Prop extends Found r where
  told : ∀ name value, told r name = some value →
    value.isWritten = true ∧ name.Unsplit ∧ value.Unsplit
  message : ∀ members, r.message = .object members → (Json.object members).Unsplit

/-! ## Merged members -/

variable {members others : Entries Text Json} {r : Record}

/-- Merged members are found first. -/
theorem lookup_merge (nodup : (Entries.keys others).Nodup) (members : Entries Text Json)
    (name : Text) : List.lookup name (merge members others) =
      (List.lookup name others).or (List.lookup name members) := by
  unfold merge
  induction others generalizing members with
  | nil => rfl
  | cons m rest ih =>
    obtain ⟨key, value⟩ := m
    obtain ⟨fresh, nodup⟩ := List.nodup_cons.mp nodup
    rw [List.foldl_cons, ih nodup]
    by_cases same : name = key
    · subst same
      have absent : List.lookup name rest = none := by
        refine Option.eq_none_iff_forall_ne_some.mpr fun a found => fresh ?_
        exact List.mem_map.mpr ⟨_, Entries.mem_of_lookup found, rfl⟩
      rw [absent, List.lookup_cons_self, Entries.lookup_put_self]
      rfl
    · rw [Entries.lookup_put_of_ne same, Entries.lookup_cons_of_ne same]

theorem proper_merge (proper : (Json.object members).Proper)
    (values : ∀ m ∈ others, m.2.Proper) : (Json.object (merge members others)).Proper := by
  unfold merge
  induction others generalizing members with
  | nil => exact proper
  | cons m rest ih =>
    exact ih (Json.proper_put proper m.1 (values m List.mem_cons_self))
      fun other member => values other (List.mem_cons_of_mem _ member)

/-! ## The members of a line -/

theorem readObject?_eq_some_iff {t : Text} : readObject? t = some members ↔
    t.head? = some ('{' : CodePoint) ∧ Json.read t = .ok (.object members) := by
  unfold readObject?
  split
  · rename_i brace
    rw [and_iff_right brace]
    split
    · rename_i read
      simp [read]
    · rename_i other
      simpa using other members
  · rename_i brace
    simp [brace]

theorem mem_of_told {name : Text} {value : Json} (spoken : told r name = some value) :
    ∃ layer ∈ layers r, (name, value) ∈ layer := by
  obtain ⟨layer, member, found⟩ := List.exists_of_findSome?_eq_some spoken
  exact ⟨layer, member, Entries.mem_of_lookup found⟩

theorem isShown_eq (name : Text) : isShown name = decide (name.head? ≠ some ('_' : CodePoint)) := by
  cases name with
  | nil => rfl
  | cons c rest =>
    by_cases mark : c = '_'
    · subst mark
      rfl
    · simp [isShown, Text.after?, mark, Ne.symm mark]

/-- The members of a record with those of its message given. -/
def Record.membersWith (r : Record) (message : Entries Text Json) : Entries Text Json :=
  merge (merge (merge
    [("timestamp", .text r.time), ("level", .text r.level.word), ("logger", .text r.logger)]
    message) (r.extra.filter fun m => isShown m.1))
    (r.exception.toList.map fun t => ("exception", .text t))

theorem members_eq (r : Record) : r.members = r.messageMembers.map r.membersWith := by
  unfold Record.members
  congr 1
  funext message
  rw [Record.membersWith]
  cases r.exception <;> rfl

theorem proper_said (loggable : Loggable r) : (Json.object (said r.message)).Proper := by
  rcases loggable.message with ⟨t, text⟩ | ⟨members, object, proper, -⟩
  · have proper : (Json.text t).Proper := Json.proper_of_scalar trivial trivial
    rw [text, said]
    cases object : readObject? t with
    | some members => exact Json.proper_of_read (readObject?_eq_some_iff.mp object).2
    | none => exact Json.proper_put Json.proper_empty "message" proper
  · rw [object]
    exact proper

/-- Under each name of a line stands what the first layer with the name has. -/
theorem lookup_membersWith (loggable : Loggable r) (name : Text) :
    List.lookup name (r.membersWith (said r.message)) = told r name := by
  have exception : (Entries.keys (r.exception.toList.map fun t =>
      (("exception" : Text), Json.text t))).Nodup := by
    cases r.exception with
    | none => exact List.nodup_nil
    | some t => exact List.nodup_cons.mpr ⟨List.not_mem_nil, List.nodup_nil⟩
  have extra : (Entries.keys (r.extra.filter fun m => isShown m.1)).Nodup :=
    (Json.proper_object.mp loggable.extra).1.sublist (List.filter_sublist.map Prod.fst)
  have message := (Json.proper_object.mp (proper_said loggable)).1
  have front (layer : Entries Text Json) (behind : List (Entries Text Json)) :
      (layer :: behind).findSome? (List.lookup name) =
        (List.lookup name layer).or (behind.findSome? (List.lookup name)) := by
    rw [List.findSome?_cons]
    cases List.lookup name layer <;> rfl
  rw [Record.membersWith, lookup_merge exception, lookup_merge extra, lookup_merge message, told,
    layers, front, front, front, front, List.findSome?_nil, Option.or_none]
  simp only [isShown_eq]

theorem proper_membersWith (loggable : Loggable r) {message : Entries Text Json}
    (proper : (Json.object message).Proper) : (Json.object (r.membersWith message)).Proper := by
  have extra := (Json.proper_object.mp loggable.extra).2
  have texts (t : Text) : (Json.text t).Proper := Json.proper_of_scalar trivial trivial
  have names : (["timestamp", "level", "logger"] : List Text).Nodup := by decide
  refine proper_merge (proper_merge (proper_merge ?_ (Json.proper_object.mp proper).2) ?_) ?_
  · refine Json.proper_object.mpr ⟨names, ?_⟩
    simp [texts]
  · exact fun m member => extra m (List.mem_of_mem_filter member)
  · intro m member
    obtain ⟨t, -, rfl⟩ := List.mem_map.mp member
    exact texts t

/-! ## What is written -/

/-- What the message of a record is heard as after it is prepared. -/
def heard : Json → Entries Text Json
  | .object members => Json.rereadMembers [] members
  | message => said message

theorem writtenMessage_eq_ok_iff {t : Text} (text : r.message = .text t) :
    r.writtenMessage = .ok members ↔
      Entries.value? r.extra messageWriter = none ∧ members = whole t := by
  have written : (Json.text t).isWritten = true := rfl
  unfold Record.writtenMessage
  cases Entries.value? r.extra messageWriter with
  | some found => simp
  | none => simp [text, written, Json.display, whole, eq_comm]

/-- A text that is no object is written as it is, unless an integer in it is too long. -/
theorem messageMembers_of_readObject? {t : Text} (text : r.message = .text t)
    (other : readObject? t = none)
    (short : t.head? = some ('{' : CodePoint) → ∀ n, Json.read t ≠ .error (.integerTooLong n)) :
    r.messageMembers = r.writtenMessage := by
  unfold Record.messageMembers
  rw [text]
  cases t with
  | nil => rfl
  | cons c rest =>
    by_cases brace : c = '{'
    · subst brace
      simp only [if_true]
      split
      · rename_i members read
        rw [readObject?_eq_some_iff.mpr ⟨rfl, read⟩] at other
        cases other
      · rename_i read
        exact absurd read (short rfl _)
      · rfl
    · simp only [if_neg brace]

theorem messageMembers_of_object {t : Text} (text : r.message = .text t)
    (object : readObject? t = some members) : r.messageMembers = .ok members := by
  obtain ⟨brace, read⟩ := readObject?_eq_some_iff.mp object
  obtain ⟨rest, rfl⟩ := List.head?_eq_some_iff.mp brace
  unfold Record.messageMembers
  rw [text]
  simp only [if_true, read]

theorem messageMembers_of_long {t : Text} (text : r.message = .text t)
    (brace : t.head? = some ('{' : CodePoint)) {n : Nat}
    (long : Json.read t = .error (.integerTooLong n)) :
    r.messageMembers = .error (.integerTooLong n) := by
  obtain ⟨rest, rfl⟩ := List.head?_eq_some_iff.mp brace
  unfold Record.messageMembers
  rw [text]
  simp only [if_true, long]

theorem found_iff_of_text {t : Text} (text : r.message = .text t) : Found r ↔
    (t.head? = some ('{' : CodePoint) → ∀ n, Json.read t ≠ .error (.integerTooLong n)) ∧
      (readObject? t = none → Entries.value? r.extra messageWriter = none) := by
  constructor
  · exact fun found => ⟨found.short t text, found.writer t text⟩
  · rintro ⟨short, writer⟩
    constructor
    · intro t' same
      cases text.symm.trans same
      exact short
    · intro t' same
      cases text.symm.trans same
      exact writer

/-- A message that is a text is found as what it says. -/
theorem messageMembers_eq_ok_iff {t : Text} (text : r.message = .text t) :
    r.messageMembers = .ok members ↔ Found r ∧ members = said (.text t) := by
  rw [found_iff_of_text text, said]
  cases object : readObject? t with
  | some own =>
    have short : t.head? = some ('{' : CodePoint) →
        ∀ n, Json.read t ≠ .error (.integerTooLong n) := by
      intro _ n
      rw [(readObject?_eq_some_iff.mp object).2]
      exact nofun
    rw [messageMembers_of_object text object]
    exact ⟨fun same => ⟨⟨short, nofun⟩, (Except.ok.inj same).symm⟩,
      fun ⟨_, same⟩ => congrArg _ same.symm⟩
  | none =>
    by_cases short : t.head? = some ('{' : CodePoint) →
        ∀ n, Json.read t ≠ .error (.integerTooLong n)
    · rw [messageMembers_of_readObject? text object short, writtenMessage_eq_ok_iff text]
      exact ⟨fun ⟨writer, same⟩ => ⟨⟨short, fun _ => writer⟩, same⟩,
        fun ⟨⟨_, writer⟩, same⟩ => ⟨writer rfl, same⟩⟩
    · refine iff_of_false (fun found => short fun brace n long => ?_) fun given => short given.1.1
      rw [messageMembers_of_long text brace long] at found
      cases found

theorem isWritten_object {members : Entries Text Json} :
    (Json.object members).isWritten = true ↔ ∀ m ∈ members, m.2.isWritten = true := by
  simp only [Json.isWritten_iff]
  exact Json.everywhere_object.trans (and_iff_right rfl)

/-- A record that is not held back has the line of its members. -/
theorem emit_eq_ok_iff (level : r.level ≠ .debug) (free : ∀ m ∈ r.extra, m.1 ∉ reservedNames)
    {lines : List Text} : emit r = .ok lines ↔
      ∃ message, r.messageMembers = .ok message ∧
        (Json.object (r.membersWith message)).isWritten = true ∧
        lines = [Json.write (.object (r.membersWith message))] := by
  have none : r.extra.find? (fun m => reservedNames.contains m.1) = none := by
    simpa [List.find?_eq_none] using free
  rw [emit, if_neg level, none, members_eq]
  cases r.messageMembers with
  | error fault =>
    exact iff_of_false nofun fun ⟨_, found, _⟩ => nomatch found
  | ok message =>
    show (line (r.membersWith message) >>= fun written => pure [written]) = .ok lines ↔ _
    by_cases written : (Json.object (r.membersWith message)).isWritten = true
    · rw [line, if_pos written]
      exact ⟨fun same => ⟨message, rfl, written, (Except.ok.inj same).symm⟩,
        fun ⟨_, found, _, same⟩ => by cases found; exact congrArg _ same.symm⟩
    · rw [line, if_neg written]
      exact iff_of_false nofun fun ⟨_, found, other, _⟩ => by cases found; exact written other

/-- A record has a line if and only if its message is found and its members have no integer of too
many digits. -/
theorem log_eq_ok_iff (loggable : Loggable r) {lines : List Text} : log r = .ok lines ↔
    Found r ∧ (Json.object (r.membersWith (heard r.message))).isWritten = true ∧
      lines = [Json.write (.object (r.membersWith (heard r.message)))] := by
  rcases loggable.message with ⟨t, text⟩ | ⟨members, object, proper, written⟩
  · have same : log r = emit r := by
      obtain ⟨time, level, logger, message, extra, exception⟩ := r
      cases text
      rfl
    rw [same, emit_eq_ok_iff loggable.level loggable.free]
    simp only [messageMembers_eq_ok_iff text]
    have plain : heard r.message = said (.text t) := by
      rw [text]
      rfl
    rw [plain]
    exact ⟨fun ⟨_, ⟨found, same⟩, written⟩ => ⟨found, same ▸ written⟩,
      fun ⟨found, written⟩ => ⟨_, ⟨found, rfl⟩, written⟩⟩
  · -- An object is written first and then found as what it is read as.
    let prepared : Record := { r with message := .text (Json.write (.object members)) }
    have read := Json.read_write proper written
    have own : readObject? (Json.write (.object members)) = some (heard r.message) := by
      rw [object]
      exact readObject?_eq_some_iff.mpr ⟨rfl, read⟩
    have same : log r = emit prepared := by
      unfold log
      rw [object, prepare, line, if_pos written]
      rfl
    have found : Found r := by
      constructor
      · intro t text
        cases object.symm.trans text
      · intro t text
        cases object.symm.trans text
    have message := messageMembers_of_object (r := prepared) rfl own
    rw [same, emit_eq_ok_iff (r := prepared) loggable.level loggable.free, message]
    exact ⟨fun ⟨_, given, line⟩ => ⟨found, by cases given; exact line⟩,
      fun ⟨_, line⟩ => ⟨_, rfl, line⟩⟩

/-! ## What is read -/

/-- A legible message is heard as it was said. -/
theorem heard_of_unsplit (loggable : Loggable r)
    (unsplit : ∀ members, r.message = .object members → (Json.object members).Unsplit) :
    heard r.message = said r.message := by
  rcases loggable.message with ⟨t, text⟩ | ⟨members, object, proper, -⟩
  · rw [text]
    rfl
  · rw [object]
    exact Json.object.inj (Json.reread_eq_self proper (unsplit members object))

theorem proper_heard (loggable : Loggable r) : (Json.object (heard r.message)).Proper := by
  rcases loggable.message with ⟨t, text⟩ | ⟨members, object, proper, written⟩
  · have plain := proper_said loggable
    rw [text] at plain ⊢
    exact plain
  · rw [object]
    exact Json.proper_of_read (Json.read_write proper written)

theorem legible_of_lossless (loggable : Loggable r) (lossless : Lossless r) : Legible r := by
  have unsplit : ∀ members, r.message = .object members → (Json.object members).Unsplit := by
    intro members object
    obtain ⟨proper, written⟩ := loggable.object object
    have same := Except.ok.inj ((Json.read_write proper written).symm.trans
      (lossless.message members object))
    exact same ▸ Json.unsplit_reread (.object members)
  -- The line is read as the members of the record read again, and by the promise it is read as the
  -- map, which are the members as they are; so nothing in them was joined.
  obtain ⟨line, members, written, -, read, same⟩ := lossless.line
  obtain ⟨found, short, lines⟩ := (log_eq_ok_iff loggable).mp written
  rw [heard_of_unsplit loggable unsplit] at short lines
  rw [List.singleton_inj.mp lines,
    Json.read_write (proper_membersWith loggable (proper_said loggable)) short] at read
  refine ⟨found, fun name value spoken => ?_, unsplit⟩
  have first := Entries.mem_of_lookup ((lookup_membersWith loggable name).trans spoken)
  have again := Entries.mem_of_lookup ((same name).trans spoken)
  have joined := Json.unsplit_reread (.object (r.membersWith (said r.message)))
  rw [Except.ok.inj read] at joined
  exact ⟨isWritten_object.mp short _ first, Json.unsplit_object.mp joined _ again⟩

theorem lossless_of_legible (loggable : Loggable r) (legible : Legible r) : Lossless r := by
  have proper := proper_membersWith loggable (proper_said loggable)
  have spoken : ∀ m ∈ r.membersWith (said r.message), told r m.1 = some m.2 := by
    intro m member
    rw [← lookup_membersWith loggable]
    exact Entries.lookup_of_mem (Json.proper_object.mp proper).1 member
  have written : (Json.object (r.membersWith (said r.message))).isWritten = true :=
    isWritten_object.mpr fun m member => (legible.told _ _ (spoken m member)).1
  have unsplit : (Json.object (r.membersWith (said r.message))).Unsplit :=
    Json.unsplit_object.mpr fun m member => (legible.told _ _ (spoken m member)).2
  have read := Json.read_write proper written
  rw [Json.reread_eq_self proper unsplit] at read
  have heard := heard_of_unsplit loggable legible.message
  constructor
  · have logged : log r = .ok [Json.write (.object (r.membersWith (said r.message)))] := by
      rw [log_eq_ok_iff loggable, heard]
      exact ⟨legible.toFound, written, rfl⟩
    exact ⟨_, _, logged, Json.lines_write proper, read, lookup_membersWith loggable⟩
  · intro members object
    obtain ⟨proper, written⟩ := loggable.object object
    rw [Json.read_write proper written, Json.reread_eq_self proper (legible.message members object)]

/-- What is written of a record at all is one line. -/
theorem one_line (loggable : Loggable r) {lines : List Text} (written : log r = .ok lines) :
    ∃ line, lines = [line] ∧ (Text.ofLines lines).lines = [line] := by
  obtain ⟨-, -, rfl⟩ := (log_eq_ok_iff loggable).mp written
  exact ⟨_, rfl, Json.lines_write (proper_membersWith loggable (proper_heard loggable))⟩

/-- Nothing of a record is lost if and only if it is legible, and no record has a second line. -/
theorem lossless_iff (loggable : Loggable r) : (Lossless r ↔ Legible r) ∧
    ∀ lines, log r = .ok lines → ∃ line, lines = [line] ∧ (Text.ofLines lines).lines = [line] :=
  ⟨⟨legible_of_lossless loggable, lossless_of_legible loggable⟩, fun _ => one_line loggable⟩

/-- An error with an object as its message, which a shown extra member and the exception speak
over. -/
def nested : Record where
  time := "2026-01-02 03:04:05,678"
  level := .error
  logger := "oracle"
  message := .object
    [("level", .int 1), ("exception", .null),
     ("lines", .array [.text ['a', '\n', 0x1F600, 0xD800], .object [("", .int (-20))]])]
  extra := [("_hidden", .bool true), ("level", .text "\"")]
  exception := some "ValueError: \r"

theorem lossless_iff_nested : Loggable nested ∧ Legible nested ∧ Lossless nested := by
  have loggable : Loggable nested := by
    refine ⟨nofun, .inr ⟨_, rfl, ?_, ?_⟩, ?_, ?_⟩
    · decide
    · decide +kernel
    · decide
    · decide
  have layered : ((layers nested).all fun layer => layer.all fun m =>
      decide (m.2.isWritten = true ∧ m.1.Unsplit ∧ m.2.Unsplit)) = true := by
    decide +kernel
  have legible : Legible nested := by
    refine ⟨⟨nofun, nofun⟩, fun name value spoken => ?_, fun members object => ?_⟩
    · obtain ⟨layer, inside, member⟩ := mem_of_told spoken
      simpa using List.all_eq_true.mp (List.all_eq_true.mp layered layer inside) _ member
    · cases object
      decide
  exact ⟨loggable, legible, (lossless_iff loggable).1.mpr legible⟩

/-! ## Integers that are too long -/

/-- An object with digits as its only value. -/
def braced (ds : List Nat) : Text :=
  '{' :: '"' :: 'a' :: '"' :: ':' :: ' ' :: (Json.digitText ds ++ [('}' : CodePoint)])

theorem opens_digitText {ds : List Nat} (leading : Json.Leading ds) :
    Json.Opens (Json.digitText ds) := by
  have table : ∀ d : Fin 10, Json.isGap (CodePoint.ofDigit d.val) = false ∧
      CodePoint.ofDigit d.val ≠ ']' := by decide
  obtain ⟨d, more, rfl⟩ := List.exists_cons_of_ne_nil leading.some
  exact ⟨_, _, rfl, table ⟨d, leading.small d List.mem_cons_self⟩⟩

/-- Digits of which there are too many are not read as a value. -/
theorem readValue_long {ds : List Nat} (leading : Json.Leading ds)
    (long : Integer.digitLimit < ds.length) {rest : Text} (ends : Json.Ends rest) (fuel : Nat) :
    Json.readValue (fuel + 1) (Json.digitText ds ++ rest) =
      .error (.integerTooLong ds.length) := by
  have read := Json.readNumber_integer false leading ends
  rw [if_pos long] at read
  obtain ⟨d, more, rfl⟩ := List.exists_cons_of_ne_nil leading.some
  have digit := (Json.digit_facts (leading.small d List.mem_cons_self)).1
  have other {c : CodePoint} (noDigit : c.isAsciiDigit = false) : CodePoint.ofDigit d ≠ c := by
    rintro rfl
    rw [digit] at noDigit
    cases noDigit
  show Json.readValue (fuel + 1) (CodePoint.ofDigit d :: (Json.digitText more ++ rest)) = _
  rw [Json.readValue, if_neg (other (by decide)), if_neg (other (by decide)),
    if_neg (other (by decide))]
  exact (Json.readScalar_digit digit false _).trans read

theorem read_braced {ds : List Nat} (leading : Json.Leading ds)
    (long : Integer.digitLimit < ds.length) :
    Json.read (braced ds) = .error (.integerTooLong ds.length) := by
  have name (rest : Text) : Json.readString (('a' : CodePoint) :: ('"' : CodePoint) :: rest) =
      some ([('a' : CodePoint)], rest) := Json.readString_written ['a'] rest
  have gap : Json.skipGap (braced ds) = braced ds := rfl
  have quote (t : Text) : Json.skipGap (('"' : CodePoint) :: t) = ('"' : CodePoint) :: t := rfl
  have colon (t : Text) : Json.skipGap ((':' : CodePoint) :: t) = (':' : CodePoint) :: t := rfl
  have opens := opens_digitText leading
  have space (t : Text) : Json.skipGap ((' ' : CodePoint) :: t) = Json.skipGap t := rfl
  obtain ⟨fuel, enough⟩ : ∃ fuel, 2 * (braced ds).length + 2 = fuel + 3 := by
    refine ⟨2 * (braced ds).length - 1, ?_⟩
    have some : 0 < (braced ds).length := Nat.succ_pos _
    omega
  have value := readValue_long leading long (Json.follows_brace []).ends fuel
  rw [Json.read, gap, enough, braced, Json.readValue, if_neg (by decide), if_neg (by decide),
    if_pos rfl]
  simp only [quote]
  rw [if_neg (by decide), Json.readMembers, if_pos rfl, name]
  simp only [colon, space, if_true, opens.skipGap, value]

/-- A record whose message is an object with an integer of one digit too many. -/
def long : Record where
  time := "1970-01-01 00:00:00,000"
  level := .info
  logger := "oracle"
  message := .text (braced (List.replicate (Integer.digitLimit + 1) 1))

/-- Such a record is lost. -/
theorem not_lossless_long : Loggable long ∧ ¬Lossless long := by
  have loggable : Loggable long := ⟨nofun, .inl ⟨_, rfl⟩, nofun, Json.proper_empty⟩
  have leading : Json.Leading (List.replicate (Integer.digitLimit + 1) 1) := by
    refine ⟨fun d member => ?_, nofun, fun rest same => ?_⟩
    · rw [List.eq_of_mem_replicate member]
      decide
    · cases same
  have digits : Integer.digitLimit < (List.replicate (Integer.digitLimit + 1) 1).length := by
    rw [List.length_replicate]
    exact Nat.lt_succ_self _
  exact ⟨loggable, fun lossless =>
    (legible_of_lossless loggable lossless).short _ rfl rfl _ (read_braced leading digits)⟩

end Paymaster.Log

import Paymaster.Proofs.Json.Numbers
import Paymaster.Proofs.Json.Proper
import Paymaster.Proofs.Json.Strings

/-!
# Written values are read back

A value without integers of too many digits is read back from its written form, but that high
surrogates in its texts and names are joined to the low ones behind them (`Json.read_write`); so
it is read back as it was exactly if there are none of those (`Json.reread_eq_self`,
`Json.unsplit_reread`). For items and members this goes by induction on their number, with enough
fuel for the text that is left.
-/

namespace Paymaster.Json

/-! ## What is read back -/

mutual

/-- The value that the written form of a value is read as. -/
def reread : Json → Json
  | .text t => .text t.paired
  | .array items => .array (rereadItems items)
  | .object members => .object (rereadMembers [] members)
  | j => j

/-- The items that written items are read as. -/
def rereadItems : List Json → List Json
  | [] => []
  | item :: rest => reread item :: rereadItems rest

/-- The members that written members are read as, behind those already read. -/
def rereadMembers (found : Entries Text Json) : List (Text × Json) → Entries Text Json
  | [] => found
  | (name, value) :: rest => rereadMembers (found.put name.paired (reread value)) rest

end

/-! ## Fronts -/

/-- What follows a value: nothing, or a comma or a closing bracket. -/
def Follows (rest : Text) : Prop :=
  ∀ c ∈ rest.head?, c = ',' ∨ c = ']' ∨ c = '}'

theorem follows_nil : Follows [] :=
  fun _ none => nomatch none

theorem follows_comma (rest : Text) : Follows ((',' : CodePoint) :: rest) := by
  rintro c ⟨⟩
  exact .inl rfl

theorem follows_bracket (rest : Text) : Follows ((']' : CodePoint) :: rest) := by
  rintro c ⟨⟩
  exact .inr (.inl rfl)

theorem follows_brace (rest : Text) : Follows (('}' : CodePoint) :: rest) := by
  rintro c ⟨⟩
  exact .inr (.inr rfl)

theorem Follows.ends {rest : Text} (follows : Follows rest) : Ends rest := by
  intro c head
  rcases follows c head with rfl | rfl | rfl <;> decide

/-- The front of a value: neither a blank nor a closing bracket. -/
def Opens (t : Text) : Prop :=
  ∃ c more, t = c :: more ∧ isGap c = false ∧ c ≠ ']'

theorem Opens.skipGap {t : Text} (opens : Opens t) (rest : Text) :
    skipGap (t ++ rest) = t ++ rest := by
  obtain ⟨c, more, rfl, solid, -⟩ := opens
  rw [List.cons_append, Json.skipGap, List.dropWhile_cons_of_neg (by simp [solid])]

/-- Fuel that is enough for a value is not used up. -/
theorem Opens.exists_succ {t : Text} (opens : Opens t) {fuel : Nat}
    (enough : 2 * t.length ≤ fuel) : ∃ less, fuel = less + 1 := by
  obtain ⟨c, more, rfl, -, -⟩ := opens
  rw [List.length_cons] at enough
  exact ⟨fuel - 1, by omega⟩

/-- No word or number starts with a blank, a quote or a bracket. -/
theorem readScalar_mark {c : CodePoint}
    (mark : c ∈ ([' ', '\t', '\n', '\r', '"', '[', ']', '{'] : Text)) (rest : Text) :
    readScalar (c :: rest) = .error .malformed := by
  simp only [List.mem_cons, List.not_mem_nil, or_false] at mark
  rcases mark with rfl | rfl | rfl | rfl | rfl | rfl | rfl | rfl <;> rfl

theorem not_mark_of_readScalar {c : CodePoint} {rest : Text} {found : Json × Text}
    (read : readScalar (c :: rest) = .ok found) :
    c ∉ ([' ', '\t', '\n', '\r', '"', '[', ']', '{'] : Text) := by
  intro mark
  rw [readScalar_mark mark] at read
  cases read

theorem opens_of_readScalar {t : Text} {found : Json × Text} (read : readScalar t = .ok found) :
    Opens t := by
  cases t with
  | nil => cases read
  | cons c rest =>
    have mark := not_mark_of_readScalar read
    simp only [List.mem_cons, List.not_mem_nil, or_false, not_or] at mark
    obtain ⟨space, tab, feed, carriage, -, -, bracket, -⟩ := mark
    exact ⟨c, rest, rfl, by simp [isGap, space, tab, feed, carriage], bracket⟩

/-- A word or a number is read as a value. -/
theorem readValue_of_readScalar {t : Text} {found : Json × Text} (read : readScalar t = .ok found)
    (fuel : Nat) : readValue (fuel + 1) t = .ok found := by
  cases t with
  | nil => cases read
  | cons c rest =>
    have mark := not_mark_of_readScalar read
    simp only [List.mem_cons, List.not_mem_nil, or_false, not_or] at mark
    obtain ⟨-, -, -, -, quote, open', -, brace⟩ := mark
    rw [readValue, if_neg quote, if_neg open', if_neg brace, read]

/-! ## Scalars -/

/-- A value whose written form is read back before whatever may follow it. Each reader of a value
in an array or object uses up two steps, one for itself and one for the value. -/
structure ReadsBack (j : Json) : Prop where
  opens : Opens (writeIn .spaced j)
  read : ∀ {fuel : Nat} {rest : Text}, 2 * (writeIn .spaced j).length ≤ fuel → Follows rest →
    readValue fuel (writeIn .spaced j ++ rest) = .ok (reread j, rest)

theorem readsBack_of_readScalar {j : Json} (same : reread j = j)
    (read : ∀ rest, Ends rest → readScalar (writeIn .spaced j ++ rest) = .ok (j, rest)) :
    ReadsBack j := by
  have opens : Opens (writeIn .spaced j) := by
    have alone := read [] (fun c none => nomatch none)
    rw [List.append_nil] at alone
    exact opens_of_readScalar alone
  refine ⟨opens, fun {fuel rest} enough follows => ?_⟩
  obtain ⟨fuel, rfl⟩ := opens.exists_succ enough
  rw [same]
  exact readValue_of_readScalar (read rest follows.ends) fuel

theorem readValue_text (t rest : Text) (fuel : Nat) :
    readValue (fuel + 1) (writeText .spaced t ++ rest) = .ok (.text t.paired, rest) := by
  have text : writeText .spaced t ++ rest =
      ('"' : CodePoint) :: (t.flatMap (writtenPoint .spaced) ++ ('"' : CodePoint) :: rest) := by
    simp [writeText, Text.within]
  rw [text, readValue, if_pos rfl, readString_written]

theorem opens_writeText (t : Text) : Opens (writeText .spaced t) :=
  ⟨'"', _, rfl, by decide, by decide⟩

theorem readsBack_scalar {j : Json} (scalar : j.IsScalar) (proper : j.IsProper)
    (short : j.isShort = true) : ReadsBack j := by
  cases j with
  | null => exact readsBack_of_readScalar rfl fun rest _ => readScalar_null rest
  | bool b =>
    cases b with
    | true => exact readsBack_of_readScalar rfl fun rest _ => readScalar_true rest
    | false => exact readsBack_of_readScalar rfl fun rest _ => readScalar_false rest
  | int n =>
    have fits : n.natAbs < Nat.pow 10 Integer.digitLimit := by
      by_contra long
      rw [isShort, Integer.write?, if_neg long] at short
      cases short
    exact readsBack_of_readScalar rfl fun rest ends => readScalar_int fits ends
  | double d => exact readsBack_of_readScalar rfl fun rest ends => readScalar_double proper ends
  | text t =>
    refine ⟨opens_writeText t, fun {fuel rest} enough _ => ?_⟩
    obtain ⟨fuel, rfl⟩ := (opens_writeText t).exists_succ enough
    exact readValue_text t rest fuel
  | array items => exact scalar.elim
  | object members => exact scalar.elim

/-! ## Items and members -/

theorem writeItems_cons (item next : Json) (more : List Json) :
    writeItems .spaced (item :: next :: more) =
      writeIn .spaced item ++ ((',' : CodePoint) :: (' ' : CodePoint) ::
        writeItems .spaced (next :: more)) := by
  rw [writeItems, List.append_assoc]
  · rfl
  · simp

theorem opens_writeItems {items : List Json} (some : items ≠ [])
    (reads : ∀ item ∈ items, ReadsBack item) : Opens (writeItems .spaced items) := by
  obtain ⟨item, more, rfl⟩ := List.exists_cons_of_ne_nil some
  obtain ⟨c, rest, text, solid, other⟩ := (reads item List.mem_cons_self).opens
  cases more with
  | nil => exact ⟨c, rest, text, solid, other⟩
  | cons next more =>
    rw [writeItems_cons, text]
    exact ⟨c, _, rfl, solid, other⟩

/-- Written items are read back up to their closing bracket. -/
theorem readItems_written {items : List Json} (some : items ≠ [])
    (reads : ∀ item ∈ items, ReadsBack item) {fuel : Nat} (rest : Text)
    (enough : 2 * (writeItems .spaced items).length + 1 ≤ fuel) :
    readItems fuel (writeItems .spaced items ++ (']' : CodePoint) :: rest) =
      .ok (rereadItems items, rest) := by
  induction items generalizing fuel with
  | nil => exact absurd rfl some
  | cons item more ih =>
    -- The comma and the space of a further item leave it the two steps that it needs.
    obtain ⟨fuel, rfl⟩ : ∃ less, fuel = less + 1 := ⟨fuel - 1, by omega⟩
    have first := reads item List.mem_cons_self
    cases more with
    | nil =>
      rw [writeItems] at enough ⊢
      have gap : skipGap ((']' : CodePoint) :: rest) = (']' : CodePoint) :: rest := rfl
      rw [readItems, first.read (by omega) (follows_bracket rest)]
      simp only [gap, if_true]
      rfl
    | cons next more =>
      have others : ∀ item ∈ next :: more, ReadsBack item := fun item member =>
        reads item (List.mem_cons_of_mem _ member)
      have opens := opens_writeItems (List.cons_ne_nil next more) others
      rw [writeItems_cons] at enough ⊢
      simp only [List.length_append, List.length_cons] at enough
      have further : readItems fuel (writeItems .spaced (next :: more) ++ (']' : CodePoint) :: rest)
          = .ok (rereadItems (next :: more), rest) :=
        ih (List.cons_ne_nil next more) others (by omega)
      have gap (t : Text) : skipGap ((',' : CodePoint) :: t) = (',' : CodePoint) :: t := rfl
      have space (t : Text) : skipGap ((' ' : CodePoint) :: t) = skipGap t := rfl
      have bracket : ((',' : CodePoint) = ']') = False := by decide
      rw [List.append_assoc, List.cons_append, List.cons_append, readItems,
        first.read (by omega) (follows_comma _)]
      simp only [gap, space, bracket, if_false, if_true, opens.skipGap, further]
      rfl

theorem writeMembers_cons (name : Text) (value : Json) (next : Text × Json)
    (more : Entries Text Json) :
    writeMembers .spaced ((name, value) :: next :: more) =
      writeText .spaced name ++ ((':' : CodePoint) :: (' ' : CodePoint) ::
        (writeIn .spaced value ++ ((',' : CodePoint) :: (' ' : CodePoint) ::
          writeMembers .spaced (next :: more)))) := by
  rw [writeMembers]
  · simp [Layout.spaced]
  · simp

theorem opens_writeMembers {members : Entries Text Json} (some : members ≠ []) :
    ∃ more, writeMembers .spaced members = ('"' : CodePoint) :: more := by
  obtain ⟨⟨name, value⟩, more, rfl⟩ := List.exists_cons_of_ne_nil some
  cases more with
  | nil => exact ⟨_, rfl⟩
  | cons next more =>
    rw [writeMembers_cons]
    exact ⟨_, rfl⟩

theorem writeMembers_single (name : Text) (value : Json) :
    writeMembers .spaced [(name, value)] =
      writeText .spaced name ++
        ((':' : CodePoint) :: (' ' : CodePoint) :: writeIn .spaced value) := by
  simp [writeMembers, Layout.spaced]

/-- A written name and its value are read back before what follows them. -/
theorem readMembers_member (found : Entries Text Json) (name : Text) {value : Json}
    (reads : ReadsBack value) {fuel : Nat} (enough : 2 * (writeIn .spaced value).length ≤ fuel)
    {c : CodePoint} {rest : Text} (follows : Follows (c :: rest)) (solid : isGap c = false) :
    readMembers (fuel + 1) found (writeText .spaced name ++ ((':' : CodePoint) ::
        (' ' : CodePoint) :: (writeIn .spaced value ++ c :: rest))) =
      if c = '}' then .ok (found.put name.paired (reread value), rest)
      else if c = ',' then readMembers fuel (found.put name.paired (reread value)) (skipGap rest)
      else .error .malformed := by
  have text (after : Text) : writeText .spaced name ++ after =
      ('"' : CodePoint) :: (name.flatMap (writtenPoint .spaced) ++ ('"' : CodePoint) :: after) := by
    simp [writeText, Text.within]
  have colon (t : Text) : skipGap ((':' : CodePoint) :: t) = (':' : CodePoint) :: t := rfl
  have space (t : Text) : skipGap ((' ' : CodePoint) :: t) = skipGap t := rfl
  have gap : skipGap (c :: rest) = c :: rest := List.dropWhile_cons_of_neg (by simp [solid])
  rw [text, readMembers, if_pos rfl, readString_written]
  simp only [colon, space, if_true, reads.opens.skipGap, reads.read enough follows, gap]

/-- Written members are read back up to their closing brace. -/
theorem readMembers_written {members : Entries Text Json} (some : members ≠ [])
    (reads : ∀ m ∈ members, ReadsBack m.2) (found : Entries Text Json) {fuel : Nat} (rest : Text)
    (enough : 2 * (writeMembers .spaced members).length + 1 ≤ fuel) :
    readMembers fuel found (writeMembers .spaced members ++ ('}' : CodePoint) :: rest) =
      .ok (rereadMembers found members, rest) := by
  induction members generalizing fuel found with
  | nil => exact absurd rfl some
  | cons m more ih =>
    obtain ⟨name, value⟩ := m
    obtain ⟨fuel, rfl⟩ : ∃ less, fuel = less + 1 := ⟨fuel - 1, by omega⟩
    have first : ReadsBack value := reads _ List.mem_cons_self
    cases more with
    | nil =>
      rw [writeMembers_single] at enough ⊢
      simp only [List.length_append, List.length_cons] at enough
      have room : 2 * (writeIn .spaced value).length ≤ fuel := by omega
      have read := readMembers_member found name first room (follows_brace rest) (by decide)
      rw [if_pos rfl] at read
      rw [List.append_assoc]
      exact read
    | cons next more =>
      rw [writeMembers_cons] at enough ⊢
      simp only [List.length_append, List.length_cons] at enough
      obtain ⟨after, text⟩ := opens_writeMembers (List.cons_ne_nil next more)
      have space : skipGap ((' ' : CodePoint) :: (writeMembers .spaced (next :: more) ++
          ('}' : CodePoint) :: rest)) = writeMembers .spaced (next :: more) ++
            ('}' : CodePoint) :: rest := by
        rw [text]
        rfl
      have room : 2 * (writeIn .spaced value).length ≤ fuel := by omega
      have read := readMembers_member found name first room (follows_comma ((' ' : CodePoint) ::
        (writeMembers .spaced (next :: more) ++ ('}' : CodePoint) :: rest))) (by decide)
      rw [if_neg (by decide), if_pos rfl, space, ih (List.cons_ne_nil next more)
        (fun m member => reads m (List.mem_cons_of_mem _ member)) _ (by omega)] at read
      rw [rereadMembers]
      simpa using read

/-! ## Values -/

theorem readsBack_array {items : List Json} (reads : ∀ item ∈ items, ReadsBack item) :
    ReadsBack (array items) := by
  refine ⟨⟨'[', _, rfl, by decide, by decide⟩, fun {fuel rest} enough _ => ?_⟩
  have text : writeIn .spaced (array items) ++ rest =
      ('[' : CodePoint) :: (writeItems .spaced items ++ (']' : CodePoint) :: rest) := by
    simp [writeIn, Text.within]
  have length : (writeIn .spaced (array items)).length = (writeItems .spaced items).length + 2 := by
    simp [writeIn, Text.within]
  obtain ⟨fuel, rfl⟩ : ∃ less, fuel = less + 1 := ⟨fuel - 1, by omega⟩
  rw [text, readValue, if_neg (by decide), if_pos rfl]
  by_cases none : items = []
  · subst none
    rfl
  · have opens := opens_writeItems none reads
    have read : readItems fuel (writeItems .spaced items ++ (']' : CodePoint) :: rest) =
        .ok (rereadItems items, rest) := readItems_written none reads rest (by omega)
    obtain ⟨c, more, front, -, other⟩ := id opens
    rw [opens.skipGap]
    rw [front, List.cons_append] at read ⊢
    simp only [if_neg other, read]
    rfl

theorem readsBack_object {members : Entries Text Json} (reads : ∀ m ∈ members, ReadsBack m.2) :
    ReadsBack (object members) := by
  refine ⟨⟨'{', _, rfl, by decide, by decide⟩, fun {fuel rest} enough _ => ?_⟩
  have text : writeIn .spaced (object members) ++ rest =
      ('{' : CodePoint) :: (writeMembers .spaced members ++ ('}' : CodePoint) :: rest) := by
    simp [writeIn, Text.within]
  have length : (writeIn .spaced (object members)).length =
      (writeMembers .spaced members).length + 2 := by
    simp [writeIn, Text.within]
  obtain ⟨fuel, rfl⟩ : ∃ less, fuel = less + 1 := ⟨fuel - 1, by omega⟩
  rw [text, readValue, if_neg (by decide), if_neg (by decide), if_pos rfl]
  by_cases none : members = []
  · subst none
    rfl
  · have read : readMembers fuel [] (writeMembers .spaced members ++ ('}' : CodePoint) :: rest) =
        .ok (rereadMembers [] members, rest) := readMembers_written none reads [] rest (by omega)
    obtain ⟨more, front⟩ := opens_writeMembers none
    have gap (t : Text) : skipGap (('"' : CodePoint) :: t) = ('"' : CodePoint) :: t := rfl
    have brace : (('"' : CodePoint) = '}') = False := by decide
    rw [front, List.cons_append] at read ⊢
    simp only [gap, brace, if_false, read]
    rfl

/-- Every proper value without integers of too many digits is read back. -/
theorem readsBack {j : Json} (proper : j.Proper) (written : j.isWritten = true) : ReadsBack j := by
  rw [isWritten_iff] at written
  induction j using Json.induction with
  | scalar j scalar =>
    exact readsBack_scalar scalar ((everywhere_scalar scalar).mp proper)
      ((everywhere_scalar scalar).mp written)
  | array items ih =>
    have values := (everywhere_array.mp written).2
    exact readsBack_array fun item member =>
      ih item member (proper_array.mp proper item member) (values item member)
  | object members ih =>
    have values := (everywhere_object.mp written).2
    exact readsBack_object fun m member =>
      ih m member ((proper_object.mp proper).2 m member) (values m member)

/-- The written form of a value is read as the value with its pairs joined. -/
theorem read_write {j : Json} (proper : j.Proper) (written : j.isWritten = true) :
    read (write j) = .ok (reread j) := by
  have reads := readsBack proper written
  have front := reads.opens.skipGap []
  have value := reads.read (show 2 * (write j).length ≤ 2 * (write j).length + 2 by omega)
    follows_nil
  rw [List.append_nil] at front value
  rw [read, write, front]
  rw [write] at value
  rw [value]
  rfl

/-! ## Values without pairs of lone surrogates -/

/-- A text, or an object with names, without such a pair, or any other part. -/
def IsUnsplit : Json → Prop
  | .text t => t.Unsplit
  | .object members => ∀ m ∈ members, m.1.Unsplit
  | _ => True

instance : DecidablePred IsUnsplit
  | .text t => inferInstanceAs (Decidable t.Unsplit)
  | .object members => inferInstanceAs (Decidable (∀ m ∈ members, m.1.Unsplit))
  | .null | .bool _ | .int _ | .double _ | .array _ => inferInstanceAs (Decidable True)

/-- A value in whose texts and names no high surrogate stands before a low one. -/
def Unsplit (j : Json) : Prop :=
  Everywhere IsUnsplit j

instance (j : Json) : Decidable j.Unsplit :=
  List.decidableBAll IsUnsplit j.parts

theorem unsplit_of_scalar {j : Json} (scalar : j.IsScalar) (unsplit : j.IsUnsplit) : j.Unsplit :=
  (everywhere_scalar scalar).mpr unsplit

theorem unsplit_array {items : List Json} :
    (array items).Unsplit ↔ ∀ item ∈ items, item.Unsplit :=
  everywhere_array.trans (and_iff_right trivial)

theorem unsplit_object {members : Entries Text Json} :
    (object members).Unsplit ↔ ∀ m ∈ members, m.1.Unsplit ∧ m.2.Unsplit :=
  everywhere_object.trans forall₂_and.symm

theorem rereadItems_eq (items : List Json) : rereadItems items = items.map reread := by
  induction items with
  | nil => rfl
  | cons item rest ih => rw [rereadItems, ih, List.map_cons]

/-- Members that are read as they were are put behind those already there. -/
theorem rereadMembers_eq {members : Entries Text Json} (found : Entries Text Json)
    (nodup : (Entries.keys (found ++ members)).Nodup)
    (same : ∀ m ∈ members, m.1.paired = m.1 ∧ reread m.2 = m.2) :
    rereadMembers found members = found ++ members := by
  induction members generalizing found with
  | nil => rw [rereadMembers, List.append_nil]
  | cons m rest ih =>
    obtain ⟨name, value⟩ := m
    obtain ⟨sameName, sameValue⟩ := same _ List.mem_cons_self
    have fresh : name ∉ Entries.keys found := by
      intro member
      rw [Entries.keys, List.map_append, List.nodup_append] at nodup
      exact nodup.2.2 name member name (by simp) rfl
    rw [rereadMembers, sameName, sameValue, Entries.put_of_not_mem fresh, ih]
    · simp
    · simpa using nodup
    · exact fun m member => same m (List.mem_cons_of_mem _ member)

theorem reread_eq_self {j : Json} (proper : j.Proper) (unsplit : j.Unsplit) : reread j = j := by
  induction j using Json.induction with
  | scalar j scalar =>
    have alone := (everywhere_scalar scalar).mp unsplit
    cases j with
    | text t => rw [reread, Text.paired_eq_self alone]
    | array => exact scalar.elim
    | object => exact scalar.elim
    | _ => rfl
  | array items ih =>
    have values := proper_array.mp proper
    have same : items.map reread = items :=
      (List.map_congr_left fun item member => ih item member (values item member)
        (unsplit_array.mp unsplit item member)).trans (List.map_id items)
    rw [reread, rereadItems_eq, same]
  | object members ih =>
    have ⟨nodup, values⟩ := proper_object.mp proper
    rw [reread, rereadMembers_eq [] nodup, List.nil_append]
    intro m member
    have ⟨name, value⟩ := unsplit_object.mp unsplit m member
    exact ⟨Text.paired_eq_self name, ih m member (values m member) value⟩

theorem unsplit_put {members : Entries Text Json} (unsplit : (object members).Unsplit)
    {name : Text} (unsplitName : name.Unsplit) {value : Json} (unsplitValue : value.Unsplit) :
    (object (members.put name value)).Unsplit := by
  refine unsplit_object.mpr fun m member => ?_
  rcases Entries.mem_put member with rfl | old
  · exact ⟨unsplitName, unsplitValue⟩
  · exact unsplit_object.mp unsplit m old

theorem unsplit_rereadMembers {members found : Entries Text Json}
    (unsplit : (object found).Unsplit) (values : ∀ m ∈ members, (reread m.2).Unsplit) :
    (object (rereadMembers found members)).Unsplit := by
  induction members generalizing found with
  | nil => exact unsplit
  | cons m rest ih =>
    exact ih (unsplit_put unsplit (Text.unsplit_paired m.1) (values m List.mem_cons_self))
      fun other member => values other (List.mem_cons_of_mem _ member)

/-- What is read back has no such pair. -/
theorem unsplit_reread (j : Json) : (reread j).Unsplit := by
  induction j using Json.induction with
  | scalar j scalar =>
    cases j with
    | text t => exact unsplit_of_scalar trivial (Text.unsplit_paired t)
    | array => exact scalar.elim
    | object => exact scalar.elim
    | _ => exact unsplit_of_scalar trivial trivial
  | array items ih =>
    rw [reread, rereadItems_eq]
    refine unsplit_array.mpr fun item member => ?_
    obtain ⟨inner, inside, rfl⟩ := List.mem_map.mp member
    exact ih inner inside
  | object members ih =>
    exact unsplit_rereadMembers (unsplit_object.mpr (by simp)) ih

end Paymaster.Json

import Replica.Proofs.Documents
import Replica.Proofs.RoundTrip
/-! Messages as objects, however an object spells them: their fields in any order, what says nothing left out,
and members between them that are none of theirs. What one service writes as JSON another reads as the same
message, with blanks around it or without. -/
namespace Replica.Message

open Json (EndsNumber chars membersText)

/-! ### Spellings -/

/-- A member of an object that spells a message. -/
inductive Entry where
  /-- A field of the message. -/
  | field (name : FieldName)
  /-- A member that is no field. -/
  | extra (name : String) (value : Json)

namespace Entry

/-- What is written for an entry. -/
def member (m : Message) : Entry → String × Json
  | field name => (name.text, m.fieldJson name)
  | extra name value => (name, value)

/-- The field that an entry gives. -/
def field? : Entry → Option FieldName
  | field name => some name
  | extra .. => none

/-- The name of a member that is no field is none of the names of fields. -/
def IsForeign : Entry → Prop
  | field _ => True
  | extra name _ => ∀ field ∈ FieldName.all, field.text ≠ name

instance (entry : Entry) : Decidable entry.IsForeign :=
  match entry with
  | field _ => inferInstanceAs (Decidable True)
  | extra name _ => inferInstanceAs (Decidable (∀ field ∈ FieldName.all, field.text ≠ name))

end Entry

/-- The fields that entries give. -/
def fieldsOf (entries : List Entry) : List FieldName := entries.filterMap Entry.field?

/-- A field that says nothing may be left out: an empty snapshot, and that the message is not forced. -/
def MayLack (m : Message) : FieldName → Prop
  | .snapshot => m.snapshot = ∅
  | .isForceSync => m.isForceSync = false
  | _ => False

instance (m : Message) (field : FieldName) : Decidable (m.MayLack field) :=
  match field with
  | .snapshot => inferInstanceAs (Decidable (m.snapshot = ∅))
  | .isForceSync => inferInstanceAs (Decidable (m.isForceSync = false))
  | .entityId | .entityKind | .crudAction | .emittedAt => inferInstanceAs (Decidable False)

theorem FieldName.mem_all (field : FieldName) : field ∈ FieldName.all := by
  cases field <;> decide

/-- The entries give each field of a message once, apart from those that may be left out, and other members
besides. -/
structure Spells (m : Message) (entries : List Entry) : Prop where
  once : (fieldsOf entries).Nodup
  complete : ∀ field, field ∈ fieldsOf entries ∨ m.MayLack field
  foreign : ∀ entry ∈ entries, entry.IsForeign

instance (m : Message) (entries : List Entry) : Decidable (Spells m entries) :=
  decidable_of_iff ((fieldsOf entries).Nodup ∧ (∀ field ∈ FieldName.all, field ∈ fieldsOf entries ∨ m.MayLack field) ∧
      ∀ entry ∈ entries, entry.IsForeign)
    ⟨fun ⟨once, complete, foreign⟩ => ⟨once, fun field => complete field (FieldName.mem_all field), foreign⟩,
      fun ⟨once, complete, foreign⟩ => ⟨once, fun field _ => complete field, foreign⟩⟩

variable {m : Message} {d : Draft} {entries : List Entry}

theorem fieldsOf_map_field (fields : List FieldName) : fieldsOf (fields.map .field) = fields := by
  rw [fieldsOf, List.filterMap_map]
  exact List.filterMap_some

/-- A message is written as all its fields. -/
theorem spells_all (m : Message) : Spells m (FieldName.all.map .field) where
  once := by
    rw [fieldsOf_map_field]
    decide
  complete field := by
    rw [fieldsOf_map_field]
    exact .inl (FieldName.mem_all field)
  foreign entry there := by
    obtain ⟨field, -, rfl⟩ := List.mem_map.1 there
    trivial

theorem json_eq_obj_entries (m : Message) :
    m.json = .obj ((FieldName.all.map Entry.field).map (Entry.member m)) := by
  rw [json_eq, List.map_map]
  rfl

/-! ### Drafts -/

/-- The draft with some fields as they are in a message. -/
def Draft.having (m : Message) (has : FieldName → Bool) : Draft :=
  { entityId := if has .entityId then some m.entityId else none
    entityKind := if has .entityKind then some m.entityKind else none
    crudAction := if has .crudAction then some m.action else none
    snapshot := if has .snapshot then some m.snapshot else none
    emittedAt := if has .emittedAt then some m.emittedAt else none
    isForceSync := if has .isForceSync then some m.isForceSync else none }

section Drafts

variable {has : FieldName → Bool}

theorem Draft.fill_having (field : FieldName) :
    (Draft.having m has).fill m field = Draft.having m fun other => other == field || has other := by
  cases field <;> rfl

/-- Only what was read is there. -/
theorem Draft.foldl_fill (m : Message) (fields : List FieldName) :
    fields.foldl (Draft.fill m) {} = Draft.having m fields.contains := by
  suffices general : ∀ has, fields.foldl (Draft.fill m) (Draft.having m has) =
      Draft.having m fun field => fields.contains field || has field by
    have from_ := general fun _ => false
    simp only [Bool.or_false] at from_
    exact from_
  induction fields with
  | nil => exact fun has => rfl
  | cons field fields ih =>
    intro has
    rw [List.foldl_cons, Draft.fill_having, ih]
    refine congrArg (Draft.having m) (funext fun other => ?_)
    rw [List.contains_cons, Bool.or_left_comm, Bool.or_assoc]

theorem Draft.isSet_having (field : FieldName) : (Draft.having m has).isSet field = has field := by
  cases field <;> simp only [Draft.isSet, Draft.having] <;> split <;> simp_all

theorem Draft.missing?_having (complete : ∀ field, has field = true ∨ m.MayLack field) :
    (Draft.having m has).missing? = none := by
  refine List.find?_eq_none.2 fun field _ => ?_
  rw [Draft.isSet_having]
  rcases complete field with given | lacks
  · simp [given]
  · cases field <;> first | exact lacks.elim | simp [FieldName.mayOmit]

/-- The message is complete once all is read that may not be left out. -/
theorem Draft.message?_having (complete : ∀ field, has field = true ∨ m.MayLack field) :
    (Draft.having m has).message? = some m := by
  have id : has .entityId = true := (complete .entityId).resolve_right fun lacks => lacks
  have kind : has .entityKind = true := (complete .entityKind).resolve_right fun lacks => lacks
  have action : has .crudAction = true := (complete .crudAction).resolve_right fun lacks => lacks
  have emitted : has .emittedAt = true := (complete .emittedAt).resolve_right fun lacks => lacks
  have snapshot : (if has .snapshot then some m.snapshot else none).getD ∅ = m.snapshot := by
    rcases complete .snapshot with given | lacks
    · rw [if_pos given, Option.getD_some]
    · have empty : m.snapshot = ∅ := lacks
      rw [empty]
      split <;> rfl
  have forced : (if has .isForceSync then some m.isForceSync else none).getD false = m.isForceSync := by
    rcases complete .isForceSync with given | lacks
    · rw [if_pos given, Option.getD_some]
    · have not_ : m.isForceSync = false := lacks
      rw [not_]
      split <;> rfl
  simp [Draft.message?, Draft.having, id, kind, action, emitted, snapshot, forced]

end Drafts

/-- The draft after an entry. -/
def Draft.take (m : Message) (d : Draft) : Entry → Draft
  | .field name => d.fill m name
  | .extra .. => d

theorem Draft.foldl_take (m : Message) (d : Draft) (entries : List Entry) :
    entries.foldl (Draft.take m) d = (fieldsOf entries).foldl (Draft.fill m) d := by
  induction entries generalizing d with
  | nil => rfl
  | cons entry entries ih => cases entry <;> exact ih _

/-- Whatever the order, the fields of a message make up the message. -/
theorem Spells.draft (spells : Spells m entries) :
    (entries.foldl (Draft.take m) {}).missing? = none ∧
      (entries.foldl (Draft.take m) {}).message? = some m := by
  have complete (field : FieldName) : (fieldsOf entries).contains field = true ∨ m.MayLack field := by
    rw [List.contains_iff_mem]
    exact spells.complete field
  rw [Draft.foldl_take, Draft.foldl_fill]
  exact ⟨Draft.missing?_having complete, Draft.message?_having complete⟩

/-- The entries give no field twice and none that is there already, and the other members are no fields: so a
reader goes through them. -/
structure Draft.Awaits (d : Draft) (entries : List Entry) : Prop where
  once : (fieldsOf entries).Nodup
  unset : ∀ field ∈ fieldsOf entries, d.isSet field = false
  foreign : ∀ entry ∈ entries, entry.IsForeign

theorem Spells.awaits (spells : Spells m entries) : ({} : Draft).Awaits entries :=
  ⟨spells.once, fun field _ => by cases field <;> rfl, spells.foreign⟩

theorem Draft.Awaits.first {entry : Entry} (awaits : d.Awaits (entry :: entries)) :
    ∀ field ∈ entry.field?, d.isSet field = false := by
  intro field there
  have given : entry.field? = some field := there
  exact awaits.unset field (List.mem_filterMap.2 ⟨entry, List.mem_cons_self, given⟩)

theorem Draft.Awaits.later {entry : Entry} (awaits : d.Awaits (entry :: entries)) (m : Message) :
    (d.take m entry).Awaits entries := by
  obtain ⟨once, unset, foreign⟩ := awaits
  have others := (List.forall_mem_cons.1 foreign).2
  cases entry with
  | field name =>
    obtain ⟨new, once⟩ := List.nodup_cons.1 (show (name :: fieldsOf entries).Nodup from once)
    refine ⟨once, fun other there => ?_, others⟩
    have else_ : other ≠ name := fun same => new (same ▸ there)
    exact (Draft.isSet_fill else_).trans (unset other (List.mem_cons_of_mem name there))
  | extra => exact ⟨once, unset, others⟩

/-! ### Fields in a text -/

theorem FieldName.ofText?_text (field : FieldName) : FieldName.ofText? field.text = some field := by
  cases field <;> decide

theorem FieldName.ofText?_eq_none {name : String} (foreign : ∀ field ∈ FieldName.all, field.text ≠ name) :
    FieldName.ofText? name = none :=
  List.find?_eq_none.2 fun field there same => foreign field there (beq_iff_eq.1 same)

theorem find?_jsonField (name : String) :
    shape.fields.find? (·.name == name) = (FieldName.ofText? name).map jsonField :=
  List.find?_map

theorem shape_missing? (d : Draft) : shape.missing? d = d.missing?.map jsonField :=
  List.find?_map

/-- The snapshot of a message can be read from JSON text: its numbers are whole, and containers nest no deeper
than the reader goes, the message and the snapshot counted. -/
structure Legible (m : Message) : Prop where
  whole : m.snapshot.json.hasWholeNumbers = true
  shallow : m.json.depth ≤ 127

theorem Legible.depth_snapshot (legible : Legible m) : m.snapshot.json.depth ≤ 126 := by
  have within := legible.shallow
  simp only [Message.json, Json.depth, Json.depthMembers] at within
  omega

section Reading

variable {rest : List Char}

theorem text_quote (s expected : String) (rest : List Char) :
    Json.text expected (chars (.str s) ++ rest) = .ok (s, rest) := by
  change (Json.stringTail (s.toList.flatMap Json.escapeChar ++ ['"'] ++ rest) >>= fun read =>
    pure (String.ofList read.1, read.2)) = _
  rw [Json.stringTail_quoted]
  simp [bind, Except.bind, pure, Except.pure]

theorem choice_action (depth : Nat) (action : Action) (rest : List Char) :
    Json.choice depth Action.byName (chars (.str action.text) ++ rest) = .ok (action, rest) := by
  have found : Action.byName.find? (fun option => option.1 == action.text) = some (action.text, action) := by
    cases action <;> decide
  have marked : chars (.str action.text) ++ rest =
      '"' :: (action.text.toList.flatMap Json.escapeChar ++ ['"'] ++ rest) := rfl
  have text := text_quote action.text "variant identifier" rest
  rw [marked] at text ⊢
  simp only [Json.choice, Json.skipSpace_cons (show Json.isSpace '"' = false by decide), text, bind, Except.bind, found]
  rfl

theorem readStamp_json (stamp : Stamp) (ends : EndsNumber rest) :
    readStamp (chars stamp.json ++ rest) = .ok (stamp, rest) := by
  have range := stamp.inRange
  have fits : -9223372036854775808 ≤ stamp.micros ∧ stamp.micros < 18446744073709551616 := by omega
  have kind : Json.IntKind.signed64.least ≤ stamp.micros ∧ stamp.micros ≤ Json.IntKind.signed64.greatest :=
    ⟨range.1, by simp only [Json.IntKind.signed64]; omega⟩
  have known : Stamp.ofInt? stamp.micros = some stamp := dif_pos range
  have read := Json.number_text_int fits ends
  obtain ⟨c, more, made, first⟩ := (Json.isNumeral_text (.int stamp.micros fits)).exists_cons
  have same : chars stamp.json = c :: more := made
  unfold readStamp Json.whole
  rw [made] at read
  rw [same, List.cons_append, Json.skipSpace_cons (Json.startsValue_of_number first).1]
  rw [List.cons_append] at read
  simp only [first, if_true, read, bind, Except.bind, kind, and_self, pure, Except.pure, known]

theorem truth_chars (b : Bool) (rest : List Char) : Json.truth (chars (.bool b) ++ rest) = .ok (b, rest) := by
  cases b <;> rfl

/-- A snapshot comes back as it was. -/
theorem readSnapshot_chars (legible : Legible m) (rest : List Char) :
    readSnapshot (jsonDepth - 1) (chars m.snapshot.json ++ rest) = .ok (m.snapshot, rest) := by
  have shallow := legible.depth_snapshot
  have whole := legible.whole
  rw [Snapshot.json, Json.depth] at shallow
  rw [Snapshot.json, Json.hasWholeNumbers] at whole
  have all := Json.tree_charsMembers _ (Nat.le_of_succ_le_succ shallow) whole
  generalize row : (m.snapshot.entries.map fun entry => (entry.1, entry.2.json)) = members at all
  have room := Json.length_lt_membersText members rest
  rw [Snapshot.json, row, Json.chars_obj, List.cons_append]
  change (Json.members (Json.tree 125) ((membersText true members ++ rest).length + 1) true
    (membersText true members ++ rest) >>= fun read => pure (Snapshot.ofMembers read.1, read.2)) = _
  rw [Json.members_membersText all room true rest, ← row]
  simp only [bind, Except.bind, Snapshot.ofMembers_json]
  rfl

/-- A field comes back as it was. -/
theorem readField_fieldJson (legible : Legible m) (field : FieldName) (d : Draft) (ends : EndsNumber rest) :
    readField field (jsonDepth - 1) d (chars (m.fieldJson field) ++ rest) = .ok (d.fill m field, rest) := by
  cases field with
  | entityId =>
    simp only [readField, fieldJson, text_quote, bind, Except.bind]
    rfl
  | entityKind =>
    simp only [readField, fieldJson, text_quote, bind, Except.bind]
    rfl
  | crudAction =>
    simp only [readField, fieldJson, choice_action, bind, Except.bind]
    rfl
  | snapshot =>
    simp only [readField, fieldJson, readSnapshot_chars legible, bind, Except.bind]
    rfl
  | emittedAt =>
    simp only [readField, fieldJson, readStamp_json _ ends, bind, Except.bind]
    rfl
  | isForceSync =>
    simp only [readField, fieldJson, truth_chars, bind, Except.bind]
    rfl

/-! ### Texts of messages -/

/-- An entry is read, or skipped, up to where the next member begins. -/
theorem readMembers_entry (legible : Legible m) {entry : Entry} (foreign : entry.IsForeign)
    (unset : ∀ field ∈ entry.field?, d.isSet field = false) (fuel : Nat) (first : Bool) (ends : EndsNumber rest) :
    shape.readMembers (jsonDepth - 1) (fuel + 1) first d
        ((if first then [] else [',']) ++
          (Json.quote (entry.member m).1 ++ ':' :: (chars (entry.member m).2 ++ rest))) =
      shape.readMembers (jsonDepth - 1) fuel false (d.take m entry) rest := by
  have point (cs : List Char) : Json.colon (':' :: cs) = .ok cs := rfl
  rw [Json.RecordShape.readMembers, Json.nextName_quote]
  cases entry with
  | field name =>
    have new : d.isSet name = false := unset name rfl
    have read : (jsonField name).read = readField name := rfl
    have given : (jsonField name).isSet d = d.isSet name := rfl
    simp only [bind, Except.bind, Entry.member, find?_jsonField, FieldName.ofText?_text, Option.map_some, given,
      new, Bool.false_eq_true, if_false, point, read, readField_fieldJson legible name d ends]
    rfl
  | extra name value =>
    have unknown := FieldName.ofText?_eq_none foreign
    simp only [bind, Except.bind, Entry.member, find?_jsonField, unknown, Option.map_none, point,
      Json.skipValue_chars value ends]
    rfl

/-- Some entries are read one after another; then it goes on with what follows them. -/
theorem readMembers_entries (legible : Legible m) (awaits : d.Awaits entries) (fuel : Nat) (first : Bool)
    (more : List (String × Json)) (rest : List Char) :
    shape.readMembers (jsonDepth - 1) (entries.length + fuel) first d
        (membersText first (entries.map (Entry.member m) ++ more) ++ rest) =
      shape.readMembers (jsonDepth - 1) fuel (first && entries.isEmpty) (entries.foldl (Draft.take m) d)
        (membersText (first && entries.isEmpty) more ++ rest) := by
  induction entries generalizing d first with
  | nil => simp
  | cons entry entries ih =>
    have foreign := awaits.foreign entry List.mem_cons_self
    have ends := Json.endsNumber_membersText (entries.map (Entry.member m) ++ more) rest
    have next := readMembers_entry legible foreign awaits.first (entries.length + fuel) first ends
    have later := ih (awaits.later m) false
    have count : (entry :: entries).length + fuel = entries.length + fuel + 1 := by
      rw [List.length_cons]
      omega
    rw [count, List.map_cons, List.cons_append, membersText, Json.membersTail_eq, List.append_assoc,
      List.append_assoc, List.cons_append, List.append_assoc, next, later]
    simp

/-- From the start of an object, its first entries are read one after another, blanks before it aside. -/
theorem shape_read_entries (legible : Legible m) (awaits : ({} : Draft).Awaits entries) {before : List Char}
    (blank : ∀ c ∈ before, Json.isSpace c = true) (more : List (String × Json)) (rest : List Char) :
    ∃ fuel first, shape.read jsonDepth (before ++ (chars (.obj (entries.map (Entry.member m) ++ more)) ++ rest)) =
      shape.readMembers (jsonDepth - 1) (fuel + 1) first (entries.foldl (Draft.take m) {})
        (membersText first more ++ rest) := by
  generalize made : entries.map (Entry.member m) ++ more = row
  have room : entries.length ≤ (membersText true row).length := by
    have some_ := Json.length_le_membersText true row
    rw [← made, List.length_append, List.length_map, made] at some_
    omega
  obtain ⟨fuel, enough⟩ : ∃ fuel, (membersText true row ++ rest).length + 1 = entries.length + (fuel + 1) := by
    refine ⟨(membersText true row ++ rest).length - entries.length, ?_⟩
    rw [List.length_append]
    omega
  have all := readMembers_entries legible awaits (fuel + 1) true more rest
  refine ⟨fuel, true && entries.isEmpty, ?_⟩
  rw [← all, made, Json.chars_obj, List.cons_append, Json.RecordShape.read, Json.skipSpace_append blank,
    Json.skipSpace_cons (show Json.isSpace '\x7b' = false by decide), ← enough]
  rfl

/-- However its fields are spelled, the message is read, blanks before it aside. -/
theorem readJson_entries (legible : Legible m) (spells : Spells m entries) {before : List Char}
    (blank : ∀ c ∈ before, Json.isSpace c = true) (rest : List Char) :
    readJson (before ++ (chars (.obj (entries.map (Entry.member m))) ++ rest)) = .ok (m, rest) := by
  obtain ⟨nothing, made⟩ := spells.draft
  obtain ⟨fuel, first, read⟩ := shape_read_entries legible spells.awaits blank [] rest
  have brace : Json.nextName first (membersText first [] ++ rest) = .ok (none, rest) := by
    cases first <;> rfl
  rw [List.append_nil, Json.RecordShape.readMembers, brace] at read
  unfold readJson
  rw [read]
  simp only [bind, Except.bind, shape_missing?, nothing, Option.map_none, pure, Except.pure, made]

/-- So it is with blanks before and after. -/
theorem ofJson_entries (legible : Legible m) (spells : Spells m entries) {before after : List Char}
    (blankBefore : ∀ c ∈ before, Json.isSpace c = true) (blankAfter : ∀ c ∈ after, Json.isSpace c = true) :
    ofJson (String.ofList (before ++ (chars (.obj (entries.map (Entry.member m))) ++ after))) = m.validated := by
  have ended : Json.skipSpace after = [] := by
    have none_ : Json.skipSpace (after ++ []) = Json.skipSpace [] := Json.skipSpace_append blankAfter
    rwa [List.append_nil] at none_
  unfold ofJson Json.finish
  rw [String.toList_ofList, readJson_entries legible spells blankBefore]
  simp only [bind, Except.bind, ended]
  rfl

end Reading

/-- What one service writes as JSON, another reads as the same message, with blanks around it or without; if it
cannot be routed, it is refused for all its reasons. Numbers have to be whole, as others are rounded, and containers
may nest as deep as the reader goes, the message and its snapshot counted. -/
theorem ofJson_toJson (whole : m.snapshot.json.hasWholeNumbers = true) (shallow : m.json.depth ≤ 127)
    {before after : String} (blankBefore : ∀ c ∈ before.toList, c ∈ [' ', '\n', '\t', '\r'])
    (blankAfter : ∀ c ∈ after.toList, c ∈ [' ', '\n', '\t', '\r']) :
    (m.validate = .valid → ofJson (before ++ m.toJson ++ after) = .ok m) ∧
      ∀ reasons, m.validate = .invalid reasons →
        ofJson (before ++ m.toJson ++ after) = .error (.invalid reasons) := by
  have space : ∀ c ∈ [' ', '\n', '\t', '\r'], Json.isSpace c = true := by simp [Json.isSpace]
  have text : before ++ m.toJson ++ after =
      String.ofList (before.toList ++ (chars (.obj ((FieldName.all.map Entry.field).map (Entry.member m))) ++
        after.toList)) := by
    rw [← json_eq_obj_entries, toJson, Json.compact, ← String.toList_inj]
    simp
  have read := ofJson_entries ⟨whole, shallow⟩ (spells_all m) (fun c there => space c (blankBefore c there))
    fun c there => space c (blankAfter c there)
  rw [text, read, validated]
  exact ⟨fun valid => by rw [valid], fun reasons invalid => by rw [invalid]⟩

section Samples

open Fixtures

/-- What is told of the company by names that have to be escaped, or are beyond the basic plane: the greatest and
the least number, and an array within an array. -/
def acmeInQuotes (id : String) : Message :=
  { acmeUpdated (SortedMap.ofPairs [("na\"me", .str "back\\slash\u0001\n𝄞"),
      ("shares", Value.ofJson (.arr [.ofNat 18446744073709551615,
        (Json.ofInt? (-9223372036854775808)).getD .null, .arr [.obj [("", .null)]]]))]) (stamp 1) with
    entityId := id }

theorem ofJson_toJson_inQuotes :
    ((acmeInQuotes "c\t1").snapshot.json.hasWholeNumbers = true ∧ (acmeInQuotes "c\t1").json.depth ≤ 127 ∧
      ofJson (" \r\n" ++ (acmeInQuotes "c\t1").toJson ++ "\t") = .ok (acmeInQuotes "c\t1")) ∧
      ofJson ("" ++ (acmeInQuotes "").toJson ++ "\n") = .error (.invalid ["entityId is empty"]) := by
  have whole (id : String) : (acmeInQuotes id).snapshot.json.hasWholeNumbers = true := by
    have same : (acmeInQuotes id).snapshot = (acmeInQuotes "").snapshot := rfl
    rw [same]
    decide +kernel
  have shallow : (acmeInQuotes "c\t1").json.depth ≤ 127 := by decide +kernel
  have shallowBlank : (acmeInQuotes "").json.depth ≤ 127 := by decide +kernel
  have valid : (acmeInQuotes "c\t1").validate = .valid := by decide +kernel
  have invalid : (acmeInQuotes "").validate = .invalid ["entityId is empty"] := by decide +kernel
  exact ⟨⟨whole _, shallow, (ofJson_toJson (whole _) shallow (by simp) (by simp)).1 valid⟩,
    (ofJson_toJson (whole _) shallowBlank (by simp) (by simp)).2 _ invalid⟩

end Samples

end Replica.Message

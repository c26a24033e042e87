import Replica.Proofs.Spelling
/-! Services of different ages. A reader takes a message whatever the order of its fields, whether what says
nothing was left out or not, and whatever members it does not know stand between them; but no field twice. Both
encodings agree in that. -/
namespace Replica

namespace Cbor

/-! ### Skipping -/

/-- Pieces in a row are read one after another. -/
theorem times_flatMap {α β : Type} {read : Reader β} {piece : α → List UInt8} {value : α → β} {row : List α}
    (reads : ∀ a ∈ row, ∀ rest, read (piece a ++ rest) = .ok (value a, rest)) (rest : List UInt8) :
    times read row.length (row.flatMap piece ++ rest) = .ok (row.map value, rest) := by
  induction row with
  | nil => rfl
  | cons a row ih =>
    obtain ⟨first, later⟩ := List.forall_mem_cons.1 reads
    simp only [List.length_cons, times, List.flatMap_cons, List.append_assoc, first, bind, Except.bind, ih later]
    rfl

/-- Skips a name and the value under it. -/
def skipPair (read : Reader Unit) : Reader Unit := fun bs => do
  let (_, bs) ← read bs
  read bs

section Scalars

variable (inner : Option (Reader Unit)) (rest : List UInt8)

theorem skipWith_ofText {s : String} (fits : (Text.utf8 s).length < 2 ^ 64) :
    skipWith inner (ofText s ++ rest) = .ok ((), rest) := by
  unfold skipWith
  rw [ofText, List.append_assoc, header_head (by decide) fits]
  simp only [Header.plain, bind, Except.bind, textBody, definiteText_utf8]
  rfl

theorem skipWith_null : skipWith inner (ofTree .null ++ rest) = .ok ((), rest) := by
  have read : header ([0xf6] ++ rest) = .ok (.simple 22, rest) := header_cons 0xf6 [] rfl rest
  unfold skipWith
  rw [ofTree, read]
  rfl

theorem skipWith_bool (b : Bool) : skipWith inner (ofTree (.bool b) ++ rest) = .ok ((), rest) := by
  unfold skipWith
  rw [ofTree, header_ofBool]
  cases b <;> rfl

theorem skipWith_num (n : Json.Number) : skipWith inner (ofTree (.num n) ++ rest) = .ok ((), rest) := by
  unfold skipWith
  cases n with
  | int n inRange =>
    rw [ofTree, header_ofInt inRange]
    by_cases positive : 0 ≤ n
    · rw [if_pos positive]
      rfl
    · rw [if_neg positive]
      rfl
  | float x =>
    rw [ofTree, header_ofFloat]
    rfl

end Scalars

mutual

/-- Every tree is skipped to its end. -/
theorem skip_ofTree (item : Json) {depth : Nat} (fits : (ofTree item).length < 2 ^ 64)
    (shallow : item.depth ≤ depth) (rest : List UInt8) : skip depth (ofTree item ++ rest) = .ok ((), rest) := by
  obtain ⟨inner, scalar⟩ : ∃ inner, skip depth = skipWith inner := by
    cases depth <;> exact ⟨_, rfl⟩
  match item with
  | .null => rw [scalar, skipWith_null]
  | .bool b => rw [scalar, skipWith_bool]
  | .num n => rw [scalar, skipWith_num]
  | .str s =>
    simp only [ofTree, ofText, List.length_append] at fits
    rw [scalar, ofTree, skipWith_ofText inner rest (by omega)]
  | .arr items =>
    simp only [Json.depth] at shallow
    simp only [ofTree, List.length_append] at fits
    have count := length_le_ofTrees items
    obtain ⟨depth, rfl⟩ : ∃ inside, depth = inside + 1 := ⟨depth - 1, by omega⟩
    have read := times_flatMap (skip_ofItems items (by omega) (Nat.le_of_succ_le_succ shallow)) rest
    unfold skip skipWith
    rw [ofTree, List.append_assoc, header_head (by decide) (by omega), ofTrees_eq_flatMap]
    simp only [Header.plain, bind, Except.bind, row, read]
    rfl
  | .obj members =>
    simp only [Json.depth] at shallow
    simp only [ofTree, List.length_append] at fits
    have count := length_le_ofMembers members
    obtain ⟨depth, rfl⟩ : ∃ inside, depth = inside + 1 := ⟨depth - 1, by omega⟩
    have read := times_flatMap (skip_ofMembers members (by omega) (Nat.le_of_succ_le_succ shallow)) rest
    unfold skip skipWith
    rw [ofTree, List.append_assoc, header_head (by decide) (by omega), ofMembers_eq_flatMap]
    change (times (skipPair (skip depth)) members.length
      (members.flatMap (fun member => ofText member.1 ++ ofTree member.2) ++ rest) >>= fun read =>
        pure ((), read.2)) = _
    rw [read]
    rfl

theorem skip_ofItems (items : List Json) {depth : Nat} (fits : (ofTrees items).length < 2 ^ 64)
    (shallow : Json.depthItems items ≤ depth) :
    ∀ item ∈ items, ∀ rest, skip depth (ofTree item ++ rest) = .ok ((), rest) := by
  match items with
  | [] => simp
  | item :: items =>
    simp only [ofTrees, List.length_append] at fits
    simp only [Json.depthItems] at shallow
    exact List.forall_mem_cons.2
      ⟨skip_ofTree item (by omega) (by omega), skip_ofItems items (by omega) (by omega)⟩

theorem skip_ofMembers (members : List (String × Json)) {depth : Nat}
    (fits : (ofMembers members).length < 2 ^ 64) (shallow : Json.depthMembers members ≤ depth) :
    ∀ member ∈ members, ∀ rest, skipPair (skip depth) (ofText member.1 ++ ofTree member.2 ++ rest) =
      .ok ((), rest) := by
  match members with
  | [] => simp
  | (name, item) :: members =>
    simp only [ofMembers, ofText, List.length_append] at fits
    simp only [Json.depthMembers] at shallow
    refine List.forall_mem_cons.2 ⟨fun rest => ?_, skip_ofMembers members (by omega) (by omega)⟩
    have named (rest : List UInt8) : skip depth (ofText name ++ rest) = .ok ((), rest) := by
      cases depth <;> exact skipWith_ofText _ rest (by omega)
    rw [List.append_assoc, skipPair, named]
    exact skip_ofTree item (by omega) (by omega) rest

end

end Cbor

namespace Message

open Cbor (ofTree ofText ofMembers)

variable {m : Message} {d : Draft} {entries : List Entry}

/-! ### Objects as bytes -/

/-- A member that is no field can be skipped in bytes: its name is short, and containers in its value nest no
deeper than the reader goes. -/
def Entry.IsShort : Entry → Prop
  | .field _ => True
  | .extra name value => (Text.utf8 name).length ≤ 4096 ∧ value.depth ≤ 255

instance (entry : Entry) : Decidable entry.IsShort :=
  match entry with
  | .field _ => inferInstanceAs (Decidable True)
  | .extra .. => inferInstanceAs (Decidable (_ ∧ _))

theorem find?_foreign {name : String} (foreign : ∀ field ∈ FieldName.all, field.text ≠ name) :
    FieldName.all.find? (fun field => (Cbor.Name.text name).is field.text) = none :=
  List.find?_eq_none.2 fun field there same => foreign field there (beq_iff_eq.1 same).symm

/-- An entry is read, or skipped, up to where the next begins. -/
theorem decodeEntry_entry (readable : Readable m.snapshot) {entry : Entry} (foreign : entry.IsForeign)
    (short : entry.IsShort) (fits : (ofTree (entry.member m).2).length < 2 ^ 64)
    (unset : ∀ field ∈ entry.field?, d.isSet field = false) (rest : List UInt8) :
    decodeEntry (cborDepth - 1) d (ofText (entry.member m).1 ++ (ofTree (entry.member m).2 ++ rest)) =
      .ok (d.take m entry, rest) := by
  cases entry with
  | field name => exact decodeEntry_fieldJson readable fits (unset name rfl) rest
  | extra name value =>
    obtain ⟨named, shallow⟩ := short
    have skipped := Cbor.skip_ofTree value fits shallow rest
    simp only [decodeEntry, Entry.member, Cbor.name_ofText named, bind, Except.bind, find?_foreign foreign]
    change (Cbor.skip 255 (ofTree value ++ rest) >>= fun read => pure (d, read.2)) = _
    rw [skipped]
    rfl

/-- Some entries are read one after another; then it goes on with what follows them. -/
theorem decodeEntries_entries (readable : Readable m.snapshot) (awaits : d.Awaits entries)
    (short : ∀ entry ∈ entries, entry.IsShort)
    (fits : (ofMembers (entries.map (Entry.member m))).length < 2 ^ 64) (more : Nat) (rest : List UInt8) :
    decodeEntries (cborDepth - 1) (entries.length + more) d (ofMembers (entries.map (Entry.member m)) ++ rest) =
      decodeEntries (cborDepth - 1) more (entries.foldl (Draft.take m) d) rest := by
  induction entries generalizing d with
  | nil => simp [ofMembers]
  | cons entry entries ih =>
    obtain ⟨own, others⟩ := List.forall_mem_cons.1 short
    have foreign := awaits.foreign entry List.mem_cons_self
    simp only [List.map_cons, ofMembers, List.length_append] at fits
    have first := decodeEntry_entry readable foreign own (by omega) awaits.first
      (ofMembers (entries.map (Entry.member m)) ++ rest)
    have later := ih (awaits.later m) others (by omega)
    have count : (entry :: entries).length + more = entries.length + more + 1 := by
      rw [List.length_cons]
      omega
    rw [count, List.map_cons, ofMembers, List.append_assoc, List.append_assoc, decodeEntries, first]
    exact later

/-- However its fields are spelled, the message is read, whatever bytes follow. -/
theorem decode_entries (readable : Readable m.snapshot) (spells : Spells m entries)
    (short : ∀ entry ∈ entries, entry.IsShort)
    (fits : (ofTree (.obj (entries.map (Entry.member m)))).length < 2 ^ 64) (rest : List UInt8) :
    decode (ofTree (.obj (entries.map (Entry.member m))) ++ rest) = m.validated := by
  obtain ⟨nothing, made⟩ := spells.draft
  simp only [ofTree, List.length_append] at fits
  have count := Cbor.length_le_ofMembers (entries.map (Entry.member m))
  have read := decodeEntries_entries readable spells.awaits short (by omega) 0 rest
  rw [Nat.add_zero, decodeEntries] at read
  unfold decode decodeFields
  rw [ofTree, List.append_assoc, Cbor.typedHeader_head (by decide) (by omega)]
  simp only [Cbor.Header.plain, bind, Except.bind, List.length_map, read, nothing, made]
  rfl

/-! ### A field given twice -/

theorem ofMembers_append (before after : List (String × Json)) :
    ofMembers (before ++ after) = ofMembers before ++ ofMembers after := by
  simp only [Cbor.ofMembers_eq_flatMap, List.flatMap_append]

theorem isSet_of_mem_fieldsOf {field : FieldName} (given : field ∈ fieldsOf entries) :
    (entries.foldl (Draft.take m) {}).isSet field = true := by
  rw [Draft.foldl_take, Draft.foldl_fill, Draft.isSet_having]
  exact List.contains_iff_mem.2 given

/-- A field that was given is not read again from bytes, whatever its value and whatever follows. -/
theorem decode_twice (readable : Readable m.snapshot) (awaits : ({} : Draft).Awaits entries)
    (short : ∀ entry ∈ entries, entry.IsShort) {field : FieldName} (given : field ∈ fieldsOf entries)
    {value : Json} {after : List (String × Json)}
    (fits : (ofTree (.obj (entries.map (Entry.member m) ++ (field.text, value) :: after))).length < 2 ^ 64)
    (rest : List UInt8) :
    decode (ofTree (.obj (entries.map (Entry.member m) ++ (field.text, value) :: after)) ++ rest) =
      .error (.decode (Cbor.Fault.duplicateField field.text).message) := by
  have set := isSet_of_mem_fieldsOf (m := m) given
  have named : (Text.utf8 field.text).length ≤ Cbor.nameLimit := by
    cases field <;> decide +kernel
  have bytes : ofMembers (entries.map (Entry.member m) ++ (field.text, value) :: after) =
      ofMembers (entries.map (Entry.member m)) ++ (ofText field.text ++ (ofTree value ++ ofMembers after)) := by
    rw [ofMembers_append, ofMembers, List.append_assoc]
  have count := Cbor.length_le_ofMembers (entries.map (Entry.member m) ++ (field.text, value) :: after)
  have length : (entries.map (Entry.member m) ++ (field.text, value) :: after).length =
      entries.length + (after.length + 1) := by
    rw [List.length_append, List.length_map, List.length_cons]
  rw [ofTree, List.length_append] at fits
  have within : (ofMembers (entries.map (Entry.member m))).length ≤
      (ofMembers (entries.map (Entry.member m) ++ (field.text, value) :: after)).length := by
    rw [bytes, List.length_append]
    exact Nat.le_add_right _ _
  have read := decodeEntries_entries readable awaits short (by omega) (after.length + 1)
    (ofText field.text ++ (ofTree value ++ ofMembers after) ++ rest)
  unfold decode decodeFields
  rw [ofTree, List.append_assoc, Cbor.typedHeader_head (by decide) (by omega), bytes, length, List.append_assoc]
  simp only [Cbor.Header.plain, bind, Except.bind, read]
  rw [decodeEntries, List.append_assoc, decodeEntry, Cbor.name_ofText named]
  simp only [bind, Except.bind, find?_fieldName, set, if_true]
  rfl

/-- Nor is it read again from a text. -/
theorem ofJson_twice (legible : Legible m) (awaits : ({} : Draft).Awaits entries) {field : FieldName}
    (given : field ∈ fieldsOf entries) (value : Json) (after : List (String × Json)) :
    ofJson (Json.obj (entries.map (Entry.member m) ++ (field.text, value) :: after)).compact =
      .error (.decode (Json.Fault.duplicateField field.text).message) := by
  have set := isSet_of_mem_fieldsOf (m := m) given
  obtain ⟨fuel, first, read⟩ := shape_read_entries legible awaits (List.forall_mem_nil _)
    ((field.text, value) :: after) []
  have known : (jsonField field).isSet (entries.foldl (Draft.take m) {}) = true := set
  rw [List.nil_append, List.append_nil, Json.RecordShape.readMembers, Json.membersText, List.append_assoc,
    List.append_assoc, Json.nextName_quote] at read
  simp only [bind, Except.bind, find?_jsonField, FieldName.ofText?_text, Option.map_some, known, if_true] at read
  unfold ofJson Json.finish readJson
  rw [Json.compact, String.toList_ofList, read]
  rfl

/-- A message is read from every object that spells it: its fields in any order, with other members between them,
an empty snapshot and a false force flag there or not. A field that was given is refused when it comes again,
whatever its value and whatever follows. So it is with texts and with bytes, each within what its reader takes:
a text has whole numbers in the snapshot, bytes have short names, and containers nest no deeper than the reader
goes. -/
theorem reads_spellings (m : Message) (entries : List Entry) :
    (m.validate = .valid → Spells m entries →
      (Legible m → ofJson (Json.obj (entries.map (Entry.member m))).compact = .ok m) ∧
        (Readable m.snapshot → (∀ entry ∈ entries, entry.IsShort) →
          (ofTree (.obj (entries.map (Entry.member m)))).length < 2 ^ 64 →
            ∀ rest, decode (ofTree (.obj (entries.map (Entry.member m))) ++ rest) = .ok m)) ∧
      ∀ field ∈ fieldsOf entries, ({} : Draft).Awaits entries → ∀ value after,
        (Legible m → ofJson (Json.obj (entries.map (Entry.member m) ++ (field.text, value) :: after)).compact =
          .error (.decode (Json.Fault.duplicateField field.text).message)) ∧
          (Readable m.snapshot → (∀ entry ∈ entries, entry.IsShort) →
            (ofTree (.obj (entries.map (Entry.member m) ++ (field.text, value) :: after))).length < 2 ^ 64 →
              ∀ rest, decode (ofTree (.obj (entries.map (Entry.member m) ++ (field.text, value) :: after)) ++ rest) =
                .error (.decode (Cbor.Fault.duplicateField field.text).message)) := by
  refine ⟨fun valid spells => ?_, fun field given awaits value after =>
    ⟨fun legible => ofJson_twice legible awaits given value after,
      fun readable short fits rest => decode_twice readable awaits short given fits rest⟩⟩
  have routed : m.validated = .ok m := by rw [validated, valid]
  constructor
  · intro legible
    have read := ofJson_entries legible spells (List.forall_mem_nil _) (List.forall_mem_nil _)
    rw [List.nil_append, List.append_nil] at read
    exact read.trans routed
  · intro readable short fits rest
    exact (decode_entries readable spells short fits rest).trans routed

section Samples

open Fixtures

/-- The fields of a message that is not forced, from the last to the first, and what another service tells besides:
a negative zero within a list, and a name that only looks like that of a field. -/
def fromTheLast : List Entry :=
  [.extra "version" (.arr [.num (.float Finite64.zero.neg), .obj [("", .null)]]), .field .emittedAt,
    .field .snapshot, .extra "entityid" (.str "c-2"), .field .crudAction, .field .entityKind, .field .entityId]

theorem reads_spellings_fromTheLast :
    let m := acmeInQuotes "c\t1"
    let once := Json.obj (fromTheLast.map (Entry.member m))
    let twice := Json.obj (fromTheLast.map (Entry.member m) ++ [("entityId", .null)])
    ofJson once.compact = .ok m ∧ decode (ofTree once ++ [0xff]) = .ok m ∧
      ofJson twice.compact = .error (.decode (Json.Fault.duplicateField "entityId").message) ∧
      decode (ofTree twice) = .error (.decode (Cbor.Fault.duplicateField "entityId").message) := by
  intro m once twice
  have valid : m.validate = .valid := by decide +kernel
  have spells : Spells m fromTheLast := by decide +kernel
  have legible : Legible m := ⟨by decide +kernel, by decide +kernel⟩
  have readable : Readable m.snapshot := by decide +kernel
  have short : ∀ entry ∈ fromTheLast, entry.IsShort := by decide +kernel
  have fits : (ofTree once).length < 2 ^ 64 := by decide +kernel
  have fitsTwice : (ofTree twice).length < 2 ^ 64 := by decide +kernel
  have given : FieldName.entityId ∈ fieldsOf fromTheLast := by decide
  obtain ⟨accepts, refuses⟩ := reads_spellings m fromTheLast
  obtain ⟨text, bytes⟩ := accepts valid spells
  obtain ⟨textTwice, bytesTwice⟩ := refuses .entityId given spells.awaits .null []
  have twiceBytes := bytesTwice readable short fitsTwice []
  rw [List.append_nil] at twiceBytes
  exact ⟨text legible, bytes readable short fits [0xff], textTwice legible, twiceBytes⟩

end Samples

end Message

end Replica

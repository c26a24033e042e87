import Replica.Message.Cbor
import Replica.Proofs.Sample
import Replica.Proofs.SortedMap
import Replica.Proofs.Trees
/-! Messages on the wire and back. What one service writes another reads as the same message, whatever bytes
follow; and a message that cannot be routed is refused for its reasons. -/
namespace Replica

namespace Json

mutual

theorem normalize_of_canonical (item : Json) (canonical : item.canonical = true) : item.normalize = item := by
  match item with
  | .null => rfl
  | .bool _ => rfl
  | .num _ => rfl
  | .str _ => rfl
  | .arr items =>
    rw [Json.canonical] at canonical
    rw [normalize, normalizeItems_of_canonical items canonical]
  | .obj members =>
    simp only [Json.canonical, Bool.and_eq_true, decide_eq_true_eq] at canonical
    rw [normalize, normalizeMembers_of_canonical members canonical.2,
      Entries.arrange_of_ascending canonical.1]

theorem normalizeItems_of_canonical (items : List Json) (canonical : canonicalItems items = true) :
    normalizeItems items = items := by
  match items with
  | [] => rfl
  | item :: rest =>
    simp only [canonicalItems, Bool.and_eq_true] at canonical
    rw [normalizeItems, normalize_of_canonical item canonical.1,
      normalizeItems_of_canonical rest canonical.2]

theorem normalizeMembers_of_canonical (members : List (String × Json))
    (canonical : canonicalMembers members = true) : normalizeMembers members = members := by
  match members with
  | [] => rfl
  | (name, item) :: rest =>
    simp only [canonicalMembers, Bool.and_eq_true] at canonical
    rw [normalizeMembers, normalize_of_canonical item canonical.1,
      normalizeMembers_of_canonical rest canonical.2]

end

end Json

/-- A value is what its own tree means. -/
@[simp]
theorem Value.ofJson_json (v : Value) : Value.ofJson v.json = v :=
  Value.ext_json (Json.normalize_of_canonical v.json v.canonical)

@[simp]
theorem Snapshot.ofMembers_json (s : Snapshot) :
    Snapshot.ofMembers (s.entries.map fun entry => (entry.1, entry.2.json)) = s := by
  unfold Snapshot.ofMembers
  rw [List.map_map]
  have same : (fun member : String × Json => (member.1, Value.ofJson member.2)) ∘
      (fun entry : String × Value => (entry.1, entry.2.json)) = id := by
    funext entry
    simp
  rw [same, List.map_id, SortedMap.ofPairs_entries]

namespace Cbor

/-- A whole number is read from its own bytes, tags aside. -/
theorem anyInteger_ofInt {n : Int} (fits : -9223372036854775808 ≤ n ∧ n < 18446744073709551616) (fuel : Nat)
    (rest : List UInt8) : anyInteger (fuel + 1) (ofInt n ++ rest) = .ok (n, rest) := by
  unfold anyInteger
  rw [header_ofInt fits]
  by_cases positive : 0 ≤ n
  · have same : ((n.toNat : Nat) : Int) = n := Int.toNat_of_nonneg positive
    simp only [positive, if_true, bind, Except.bind, same]
    rfl
  · have same : -1 - (((-1 - n).toNat : Nat) : Int) = n := by omega
    simp only [positive, if_false, bind, Except.bind, same]
    rfl

theorem truth_ofBool (b : Bool) (rest : List UInt8) : truth (ofBool b ++ rest) = .ok (b, rest) := by
  have read : typedHeader (ofBool b ++ rest) = .ok (.simple (if b then 21 else 20), rest) :=
    typedHeader_of_header (header_ofBool b rest) (by simp)
  unfold truth
  rw [read]
  cases b <;> rfl

end Cbor

namespace Message

open Cbor

variable {m : Message} {d : Draft}

theorem decodeStamp_json (stamp : Stamp) (rest : List UInt8) :
    decodeStamp (ofTree stamp.json ++ rest) = .ok (stamp, rest) := by
  have fits : -9223372036854775808 ≤ stamp.micros ∧ stamp.micros < 18446744073709551616 := by
    have range := stamp.inRange
    omega
  have known : Stamp.ofInt? stamp.micros = some stamp := dif_pos stamp.inRange
  unfold decodeStamp Stamp.json
  rw [ofTree, anyInteger_ofInt fits]
  simp only [bind, Except.bind, known]
  rfl

/-- The values of a snapshot that a reader of messages takes: containers nest no deeper than it goes, and names
within them are short. -/
def Readable (s : Snapshot) : Prop :=
  ∀ value ∈ SortedMap.values s, value.json.depth ≤ cborDepth - 2 ∧ value.json.hasShortNames = true

instance (s : Snapshot) : Decidable (Readable s) :=
  inferInstanceAs (Decidable (∀ value ∈ SortedMap.values s, _ ∧ _))

section Snapshots

variable {s : Snapshot}

theorem ofMembers_json (readable : Readable s) (fits : (ofTree s.json).length < 2 ^ 64) :
    ∀ member ∈ s.entries.map fun entry => (entry.1, entry.2.json),
      (Text.utf8 member.1).length < 2 ^ 64 ∧
        ∀ rest, tree (cborDepth - 2) (ofTree member.2 ++ rest) = .ok (member.2, rest) := by
  intro member there
  obtain ⟨entry, found, rfl⟩ := List.mem_map.1 there
  have short := length_le_of_mem_ofMembers there
  simp only [Snapshot.json, ofTree, List.length_append] at fits
  obtain ⟨shallow, named⟩ := readable entry.2 (List.mem_map_of_mem found)
  exact ⟨by omega, tree_ofTree _ (by omega) shallow named⟩

/-- A snapshot comes back as it was. -/
theorem decodeSnapshot_json (readable : Readable s) (fits : (ofTree s.json).length < 2 ^ 64)
    (rest : List UInt8) : decodeSnapshot (cborDepth - 1) (ofTree s.json ++ rest) = .ok (s, rest) := by
  have all := ofMembers_json readable fits
  have read := members_ofMembers
    (fun member there _ rest => typedText_ofText (all member there).1 rest "string")
    (fun member there => (all member there).2) rest
  simp only [Snapshot.json, ofTree, List.length_append] at fits
  have count := length_le_ofMembers (s.entries.map fun entry => (entry.1, entry.2.json))
  unfold decodeSnapshot
  rw [Snapshot.json, ofTree, List.append_assoc, typedHeader_head (by decide) (by omega)]
  have some_ : cborDepth - 1 = cborDepth - 2 + 1 := rfl
  simp only [Header.plain, bind, Except.bind, some_, read, Snapshot.ofMembers_json]
  rfl

end Snapshots

/-! ### Fields -/

/-- What is written for a field. -/
def fieldJson (m : Message) : FieldName → Json
  | .entityId => .str m.entityId
  | .entityKind => .str m.entityKind
  | .crudAction => .str m.action.text
  | .snapshot => m.snapshot.json
  | .emittedAt => m.emittedAt.json
  | .isForceSync => .bool m.isForceSync

theorem json_eq (m : Message) :
    m.json = .obj (FieldName.all.map fun field => (field.text, m.fieldJson field)) := rfl

/-- The draft with a field as it is in a message. -/
def Draft.fill (m : Message) (d : Draft) : FieldName → Draft
  | .entityId => { d with entityId := some m.entityId }
  | .entityKind => { d with entityKind := some m.entityKind }
  | .crudAction => { d with crudAction := some m.action }
  | .snapshot => { d with snapshot := some m.snapshot }
  | .emittedAt => { d with emittedAt := some m.emittedAt }
  | .isForceSync => { d with isForceSync := some m.isForceSync }

theorem Draft.isSet_fill {field other : FieldName} (else_ : other ≠ field) :
    (d.fill m field).isSet other = d.isSet other := by
  cases field <;> cases other <;> first | rfl | exact absurd rfl else_

/-- Once all fields are there, the draft is the message. -/
theorem Draft.message?_fill (m : Message) : (FieldName.all.foldl (Draft.fill m) {}).message? = some m := rfl

theorem Draft.missing?_fill (m : Message) : (FieldName.all.foldl (Draft.fill m) {}).missing? = none := rfl

theorem find?_byName (action : Action) :
    Action.byName.find? (fun option => action.text == option.1) = some (action.text, action) := by
  cases action <;> decide

theorem find?_fieldName (field : FieldName) :
    FieldName.all.find? (fun other => (Name.text field.text).is other.text) = some field := by
  cases field <;> decide

/-- A field comes back as it was. -/
theorem decodeField_fieldJson (readable : Readable m.snapshot) (field : FieldName)
    (fits : (ofTree (m.fieldJson field)).length < 2 ^ 64) (d : Draft) (rest : List UInt8) :
    decodeField field (cborDepth - 1) d (ofTree (m.fieldJson field) ++ rest) = .ok (d.fill m field, rest) := by
  have length_text (s : String) (fits : (ofTree (.str s)).length < 2 ^ 64) : (Text.utf8 s).length < 2 ^ 64 := by
    simp only [ofTree, ofText, List.length_append] at fits
    omega
  cases field with
  | entityId =>
    have read := typedText_ofText (length_text _ fits) rest "string"
    simp only [decodeField, fieldJson, ofTree, read, bind, Except.bind]
    rfl
  | entityKind =>
    have read := typedText_ofText (length_text _ fits) rest "string"
    simp only [decodeField, fieldJson, ofTree, read, bind, Except.bind]
    rfl
  | crudAction =>
    have short : (Text.utf8 m.action.text).length ≤ nameLimit := by
      cases m.action <;> decide +kernel
    have read := choice_ofText short rest (show cborDepth - 1 ≠ 0 by decide) (find?_byName m.action)
    simp only [decodeField, fieldJson, ofTree, read, bind, Except.bind]
    rfl
  | snapshot =>
    have read := decodeSnapshot_json readable fits rest
    simp only [decodeField, fieldJson, read, bind, Except.bind]
    rfl
  | emittedAt =>
    have read := decodeStamp_json m.emittedAt rest
    simp only [decodeField, fieldJson, read, bind, Except.bind]
    rfl
  | isForceSync =>
    have read := truth_ofBool m.isForceSync rest
    simp only [decodeField, fieldJson, ofTree, read, bind, Except.bind]
    rfl

theorem decodeEntry_fieldJson (readable : Readable m.snapshot) {field : FieldName}
    (fits : (ofTree (m.fieldJson field)).length < 2 ^ 64) (unset : d.isSet field = false) (rest : List UInt8) :
    decodeEntry (cborDepth - 1) d (ofText field.text ++ (ofTree (m.fieldJson field) ++ rest)) =
      .ok (d.fill m field, rest) := by
  have short : (Text.utf8 field.text).length ≤ nameLimit := by
    cases field <;> decide +kernel
  unfold decodeEntry
  rw [name_ofText short]
  simp only [bind, Except.bind, find?_fieldName, unset, Bool.false_eq_true, if_false,
    decodeField_fieldJson readable field fits]

/-- Fields that are not there yet are read in whatever order they were written. -/
theorem decodeEntries_fieldJson (readable : Readable m.snapshot) {fields : List FieldName}
    (distinct : fields.Nodup) (unset : ∀ field ∈ fields, d.isSet field = false)
    (fits : (ofMembers (fields.map fun field => (field.text, m.fieldJson field))).length < 2 ^ 64)
    (rest : List UInt8) :
    decodeEntries (cborDepth - 1) fields.length d
        (ofMembers (fields.map fun field => (field.text, m.fieldJson field)) ++ rest) =
      .ok (fields.foldl (Draft.fill m) d, rest) := by
  induction fields generalizing d with
  | nil => rfl
  | cons field fields ih =>
    obtain ⟨new, distinct⟩ := List.nodup_cons.1 distinct
    obtain ⟨first, later⟩ := List.forall_mem_cons.1 unset
    simp only [List.map_cons, ofMembers, List.length_append] at fits
    have still : ∀ other ∈ fields, (d.fill m field).isSet other = false := by
      intro other there
      have else_ : other ≠ field := fun same => new (same ▸ there)
      rw [Draft.isSet_fill else_, later other there]
    simp only [List.map_cons, ofMembers, List.length_cons, decodeEntries, List.append_assoc]
    rw [decodeEntry_fieldJson readable (by omega) first]
    exact ih distinct still (by omega)

/-- The fields of a message come back as they were. -/
theorem decodeFields_encode (readable : Readable m.snapshot) (fits : m.encode.length < 2 ^ 64)
    (rest : List UInt8) : decodeFields (m.encode ++ rest) = .ok (m, rest) := by
  rw [encode, json_eq, ofTree] at *
  simp only [List.length_append] at fits
  have read := decodeEntries_fieldJson (d := {}) readable (by decide) (by decide)
    (Nat.lt_of_le_of_lt (Nat.le_add_left _ _) fits) rest
  have count : (FieldName.all.map fun field => (field.text, m.fieldJson field)).length < 2 ^ 64 := by
    rw [List.length_map]
    decide
  unfold decodeFields
  rw [List.append_assoc, typedHeader_head (by decide) count]
  simp only [Header.plain, bind, Except.bind, List.length_map, read, Draft.missing?_fill, Draft.message?_fill]
  rfl

/-- What one service writes, another reads as the same message, whatever bytes follow; if it cannot be routed,
it is refused for all its reasons. Lengths are written as numbers of 64 bits, which nothing in memory exceeds. -/
theorem decode_encode (readable : Readable m.snapshot) (fits : m.encode.length < 2 ^ 64)
    (rest : List UInt8) :
    (m.validate = .valid → decode (m.encode ++ rest) = .ok m) ∧
      ∀ reasons, m.validate = .invalid reasons → decode (m.encode ++ rest) = .error (.invalid reasons) := by
  have read : decode (m.encode ++ rest) = m.validated := by
    unfold decode
    rw [decodeFields_encode readable fits]
  rw [read, validated]
  exact ⟨fun valid => by rw [valid], fun reasons invalid => by rw [invalid]⟩

section Samples

open Fixtures

/-- What is told of the company: a text beyond ASCII, the greatest and the least number, a negative zero, and an
object within an array. -/
def acmeInDetail (id : String) : Message :=
  { acmeUpdated (SortedMap.ofPairs [("name", .str "Čapek & Söhne"),
      ("shares", Value.ofJson (.arr [.num (.int 18446744073709551615 (by decide)),
        .num (.int (-9223372036854775808) (by decide)), .num (.float Finite64.zero.neg),
        .obj [("open", .bool true), ("since", .null)]]))]) (stamp 1) with
    entityId := id }

theorem decode_encode_inDetail :
    (Readable (acmeInDetail "c-1").snapshot ∧ (acmeInDetail "c-1").encode.length < 2 ^ 64 ∧
      decode ((acmeInDetail "c-1").encode ++ [0xff]) = .ok (acmeInDetail "c-1")) ∧
      Readable (acmeInDetail "").snapshot ∧ (acmeInDetail "").encode.length < 2 ^ 64 ∧
      decode ((acmeInDetail "").encode ++ [0xff]) = .error (.invalid ["entityId is empty"]) := by
  have readable : Readable (acmeInDetail "c-1").snapshot := by decide +kernel
  have fits : (acmeInDetail "c-1").encode.length < 2 ^ 64 := by decide +kernel
  have fitsBlank : (acmeInDetail "").encode.length < 2 ^ 64 := by decide +kernel
  have valid : (acmeInDetail "c-1").validate = .valid := by decide +kernel
  have invalid : (acmeInDetail "").validate = .invalid ["entityId is empty"] := by decide +kernel
  exact ⟨⟨readable, fits, (decode_encode readable fits [0xff]).1 valid⟩,
    readable, fitsBlank, (decode_encode (m := acmeInDetail "") readable fitsBlank [0xff]).2 _ invalid⟩

end Samples

end Message

end Replica

import Replica.Proofs.Prefixes
import Replica.Proofs.Spelling
/-! Messages cut short on their way. Whatever a message holds, no part of what is written for it is taken for a
message, nor for one that merely cannot be routed: readers find that it does not end. -/
namespace Replica.Message

variable {m : Message} {d : Draft}

/-! ### Bytes -/

section Bytes

open Cbor (ofTree ofText ofMembers)

theorem takes_choice (depth : Nat) (action : Action) :
    Takes (Cbor.choice depth Action.byName) (ofText action.text) fun _ => True := by
  have short : (Text.utf8 action.text).length < 2 ^ 64 := by
    cases action <;> decide +kernel
  intro more cs a rest agrees read
  obtain ⟨h, after, first, read⟩ := exists_of_bind read
  obtain ⟨rfl, agrees, rfl⟩ := (Cbor.takes_typedHead (by decide) short).step agrees first
  simp only [Cbor.Header.plain] at read
  split at read
  · cases read
  split at read
  · obtain ⟨name, end_, taken, given⟩ := exists_of_bind read
    obtain ⟨rfl, rfl⟩ := Cbor.takes_definiteText _ _ _ _ _ agrees taken
    simp only at given
    split at given
    · cases given
      exact ⟨by rw [ofText, List.append_assoc], trivial⟩
    · cases given
  · cases read

theorem takes_decodeSnapshot {s : Snapshot} (depth : Nat) (fits : (ofTree s.json).length < 2 ^ 64) :
    Takes (decodeSnapshot depth) (ofTree s.json) fun _ => True := by
  rw [Snapshot.json]  at *
  generalize s.entries.map (fun entry => (entry.1, entry.2.json)) = row at *
  simp only [ofTree, List.length_append] at fits
  have count := Cbor.length_le_ofMembers row
  intro more cs a rest agrees read
  obtain ⟨h, after, first, read⟩ := exists_of_bind read
  obtain ⟨rfl, agrees, rfl⟩ := (Cbor.takes_typedHead (by decide) (by omega)).step agrees first
  cases depth with
  | zero => cases read
  | succ depth =>
    have all := Cbor.takes_inMembers row depth (by omega)
    have named (member : String × Json) (there : member ∈ row) : (Text.utf8 member.1).length < 2 ^ 64 := by
      have within := Cbor.length_le_of_mem_ofMembers there
      omega
    have takes := Cbor.takes_members (fun member there _ => Cbor.takes_typedText (named member there) "string")
      fun member there => (all member there).2
    obtain ⟨members, end_, taken, given⟩ := exists_of_bind read
    obtain ⟨rfl, -⟩ := takes _ _ _ _ agrees taken
    cases given
    exact ⟨by rw [ofTree, List.append_assoc], trivial⟩

theorem takes_decodeStamp (stamp : Stamp) : Takes decodeStamp (ofTree stamp.json) fun _ => True := by
  have fits : -9223372036854775808 ≤ stamp.micros ∧ stamp.micros < 18446744073709551616 := by
    have range := stamp.inRange
    omega
  intro more cs a rest agrees read
  obtain ⟨n, after, whole, given⟩ := exists_of_bind read
  obtain ⟨h, end_, first, taken⟩ := exists_of_bind whole
  obtain ⟨rfl, rfl⟩ := Cbor.takes_header (Cbor.header_ofInt fits) _ _ _ _ agrees first
  have left : after = end_ := by
    by_cases positive : 0 ≤ stamp.micros
    · rw [if_pos positive] at taken
      cases taken
      rfl
    · rw [if_neg positive] at taken
      cases taken
      rfl
  simp only at given
  split at given
  · cases given
    exact ⟨congrArg _ left.symm, trivial⟩
  · cases given

theorem takes_truth (b : Bool) : Takes Cbor.truth (ofTree (.bool b)) fun _ => True := by
  have takes : Takes Cbor.typedHeader (Cbor.ofBool b) (· = .simple (if b then 21 else 20)) :=
    Cbor.takes_typedHeader (Cbor.takes_header (Cbor.header_ofBool b)) (by simp)
  intro more cs a rest agrees read
  obtain ⟨h, after, first, given⟩ := exists_of_bind read
  obtain ⟨rfl, rfl⟩ := takes _ _ _ _ agrees first
  cases b <;>
  · cases given
    exact ⟨rfl, trivial⟩

/-- The value of a field is taken whole, and nothing else. -/
theorem takes_decodeField (field : FieldName) (depth : Nat) (d : Draft)
    (fits : (ofTree (m.fieldJson field)).length < 2 ^ 64) :
    Takes (decodeField field depth d) (ofTree (m.fieldJson field)) fun _ => True := by
  -- what is read goes into the draft, and plays no part in how far the reader goes
  have into {α : Type} (set : α → Draft) {read : Cbor.Reader α} {bs : List UInt8} {told : α → Prop}
      (takes : Takes read bs told) :
      Takes (fun bs => read bs >>= fun taken => pure (set taken.1, taken.2)) bs fun _ => True := by
    intro more cs a rest agrees got
    obtain ⟨value, after, taken, given⟩ := exists_of_bind got
    obtain ⟨rfl, -⟩ := takes _ _ _ _ agrees taken
    cases given
    exact ⟨rfl, trivial⟩
  have text (s : String) (fits : (ofTree (.str s)).length < 2 ^ 64) :
      Takes (Cbor.typedText "string") (ofText s) (· = s) := by
    simp only [ofTree, ofText, List.length_append] at fits
    exact Cbor.takes_typedText (by omega) _
  cases field with
  | entityId => exact into (fun id => { d with entityId := some id }) (text m.entityId fits)
  | entityKind => exact into (fun kind => { d with entityKind := some kind }) (text m.entityKind fits)
  | crudAction => exact into (fun action => { d with crudAction := some action }) (takes_choice depth m.action)
  | snapshot => exact into (fun s => { d with snapshot := some s }) (takes_decodeSnapshot depth fits)
  | emittedAt => exact into (fun stamp => { d with emittedAt := some stamp }) (takes_decodeStamp m.emittedAt)
  | isForceSync => exact into (fun flag => { d with isForceSync := some flag }) (takes_truth m.isForceSync)

theorem takes_name (field : FieldName) : Takes Cbor.name (ofText field.text) (· = .text field.text) := by
  have short : (Text.utf8 field.text).length ≤ Cbor.nameLimit := by
    cases field <;> decide +kernel
  intro more cs a rest agrees read
  obtain ⟨h, after, first, read⟩ := exists_of_bind read
  obtain ⟨rfl, agrees, rfl⟩ := (Cbor.takes_typedHead (by decide) (Cbor.lt_of_short short)).step agrees first
  simp only [Cbor.Header.plain, short, if_true] at read
  obtain ⟨name, end_, taken, given⟩ := exists_of_bind read
  obtain ⟨rfl, rfl⟩ := Cbor.takes_definiteText _ _ _ _ _ agrees taken
  cases given
  exact ⟨by rw [ofText, List.append_assoc], rfl⟩

/-- Fields are taken one after another, as many as were announced. -/
theorem takes_decodeEntries (fields : List FieldName) (depth : Nat) (d : Draft)
    (fits : (ofMembers (fields.map fun field => (field.text, m.fieldJson field))).length < 2 ^ 64) :
    Takes (decodeEntries depth fields.length d)
      (ofMembers (fields.map fun field => (field.text, m.fieldJson field))) fun _ => True := by
  induction fields generalizing d with
  | nil =>
    intro more cs a rest _ read
    cases read
    exact ⟨rfl, trivial⟩
  | cons field fields ih =>
    simp only [List.map_cons, ofMembers, List.append_assoc, List.length_append] at fits ⊢
    intro more cs a rest agrees read
    obtain ⟨draft, after, entry, others⟩ := exists_of_bind read
    obtain ⟨name, beyond, named, value⟩ := exists_of_bind entry
    obtain ⟨rfl, inside, rfl⟩ := (takes_name field).step agrees named
    simp only [find?_fieldName] at value
    split at value
    · cases value
    · have whole : (ofTree (m.fieldJson field)).length < 2 ^ 64 := by omega
      obtain ⟨rfl, last, -⟩ := (takes_decodeField field depth d whole).step inside value
      obtain ⟨rfl, -⟩ := ih draft (by omega) _ _ _ _ last others
      exact ⟨by simp only [List.append_assoc], trivial⟩

/-- A message is taken whole. -/
theorem takes_decodeFields (fits : m.encode.length < 2 ^ 64) : Takes decodeFields m.encode fun _ => True := by
  rw [encode, json_eq] at *
  simp only [ofTree, List.length_append] at fits
  have count : (FieldName.all.map fun field => (field.text, m.fieldJson field)).length < 2 ^ 64 := by
    rw [List.length_map]
    decide
  intro more cs a rest agrees read
  obtain ⟨h, after, first, read⟩ := exists_of_bind read
  obtain ⟨rfl, inside, rfl⟩ := (Cbor.takes_typedHead (by decide) count).step agrees first
  obtain ⟨draft, end_, fields, given⟩ := exists_of_bind read
  rw [List.length_map] at fields
  obtain ⟨rfl, -⟩ := takes_decodeEntries FieldName.all _ _ (by omega) _ _ _ _ inside fields
  simp only at given
  split at given
  · cases given
  · cases given
    exact ⟨by rw [ofTree, List.append_assoc], trivial⟩
  · cases given

end Bytes

/-! ### Texts -/

open Json (chars)

section Texts

open Json (membersText TakesValue IsStuck takesValue_of_takes)

theorem takes_text (s expected : String) : Takes (Json.text expected) (chars (.str s)) (· = s) := by
  intro more cs a rest agrees got
  obtain ⟨t, rfl, inside⟩ := exists_cons_of_read _ agrees got ⟨_, rfl⟩
  obtain ⟨text, after, taken, given⟩ := exists_of_bind got
  obtain ⟨rfl, rfl⟩ := Json.takes_stringTail s.toList _ _ _ _ inside taken
  cases given
  exact ⟨rfl, String.ofList_toList⟩

theorem takes_action (depth : Nat) (action : Action) :
    Takes (Json.choice depth Action.byName) (chars (.str action.text)) fun _ => True := by
  intro more cs a rest agrees got
  obtain ⟨t, rfl, -⟩ := exists_cons_of_read _ agrees got ⟨_, rfl⟩
  obtain ⟨name, after, taken, given⟩ :=
    @exists_of_bind _ _ _ _ (Json.text "variant identifier" ('"' :: t)) _ _ got
  obtain ⟨same, -⟩ := takes_text _ _ _ _ _ _ agrees taken
  simp only at given
  split at given
  · cases given
    exact ⟨same, trivial⟩
  · cases given

theorem takes_readSnapshot (s : Snapshot) (depth : Nat) :
    Takes (readSnapshot depth) (chars s.json) fun _ => True := by
  rw [Snapshot.json, Json.chars_obj]
  intro more cs a rest agrees got
  obtain ⟨members, end_, row, given⟩ := exists_of_bind got
  obtain ⟨t, rfl, inside⟩ := exists_cons_of_read _ agrees row ⟨_, rfl⟩
  cases depth with
  | zero => cases row
  | succ depth =>
    obtain ⟨rfl, -⟩ := Json.takes_members (Json.takesValue_members _ depth) _ _ _ _ _ _ inside row
    cases given
    exact ⟨rfl, trivial⟩

theorem takesValue_readStamp (stamp : Stamp) : TakesValue readStamp (chars stamp.json) := by
  have fits : -9223372036854775808 ≤ stamp.micros ∧ stamp.micros < 18446744073709551616 := by
    have range := stamp.inRange
    omega
  obtain ⟨c, text, made, first⟩ := (Json.isNumeral_text (.int stamp.micros fits)).exists_cons
  have whole : chars stamp.json = (Json.Number.text (.int stamp.micros fits)).toList := rfl
  intro more cs a rest leaves agrees got
  obtain ⟨n, after, read, given⟩ := exists_of_bind got
  have left : after = rest := by
    simp only at given
    split at given
    · cases given
      rfl
    · cases given
  cases cs with
  | nil => cases read
  | cons d t =>
    have same : d = c := by
      rw [whole, made] at agrees
      exact (List.cons_prefix_cons.1 agrees).1
    rw [Json.whole, same, Json.skipSpace_cons (Json.startsValue_of_number first).1] at read
    simp only [first, if_true] at read
    obtain ⟨x, end_, number, read⟩ := exists_of_bind read
    have ended : end_ = rest := by
      cases x with
      | int =>
        simp only at read
        split at read
        · cases read
          exact left
        · cases read
      | float => cases read
    subst ended
    rw [whole] at agrees ⊢
    exact Json.takesValue_number _ _ _ _ _ leaves agrees (same ▸ number)

theorem takes_truthWord (b : Bool) : Takes Json.truth (chars (.bool b)) (· = b) := by
  cases b with
  | true => exact Json.takes_word ⟨_, rfl⟩ fun _ => rfl
  | false => exact Json.takes_word ⟨_, rfl⟩ fun _ => rfl

/-- The value of a field is taken whole, or the reader gets stuck in a stamp. -/
theorem takesValue_readField (field : FieldName) (depth : Nat) (d : Draft) :
    TakesValue (readField field depth d) (chars (m.fieldJson field)) := by
  have into {α : Type} (set : α → Draft) {read : Json.Reader α} {text : List Char} (takes : TakesValue read text) :
      TakesValue (fun cs => read cs >>= fun taken => pure (set taken.1, taken.2)) text := by
    intro more cs a rest leaves agrees got
    obtain ⟨value, after, taken, given⟩ := exists_of_bind got
    cases given
    exact takes _ _ _ _ leaves agrees taken
  cases field with
  | entityId =>
    exact into (fun id => { d with entityId := some id }) (takesValue_of_takes (takes_text m.entityId _))
  | entityKind =>
    exact into (fun kind => { d with entityKind := some kind }) (takesValue_of_takes (takes_text m.entityKind _))
  | crudAction =>
    exact into (fun action => { d with crudAction := some action }) (takesValue_of_takes (takes_action depth m.action))
  | snapshot =>
    exact into (fun s => { d with snapshot := some s }) (takesValue_of_takes (takes_readSnapshot m.snapshot depth))
  | emittedAt => exact into (fun stamp => { d with emittedAt := some stamp }) (takesValue_readStamp m.emittedAt)
  | isForceSync =>
    exact into (fun flag => { d with isForceSync := some flag }) (takesValue_of_takes (takes_truthWord m.isForceSync))

theorem readMembers_of_isStuck {cs : List Char} (stuck : IsStuck cs) (depth fuel : Nat) (d : Draft) :
    ∃ fault, shape.readMembers depth fuel false d cs = .error fault := by
  cases fuel with
  | zero => exact ⟨_, rfl⟩
  | succ fuel =>
    rw [Json.RecordShape.readMembers]
    rcases Json.nextName_of_isStuck stuck with fault | fault <;>
    · rw [fault]
      exact ⟨_, rfl⟩

/-- Fields are taken one after another, up to the closing brace. -/
theorem takes_readMembers (fields : List FieldName) (depth fuel : Nat) (first : Bool) (d : Draft) :
    Takes (shape.readMembers depth fuel first d)
      (membersText first (fields.map fun field => (field.text, m.fieldJson field))) fun _ => True := by
  induction fields generalizing fuel first d with
  | nil =>
    intro more cs a rest agrees got
    cases fuel with
    | zero => cases got
    | succ fuel =>
      obtain ⟨cs, rfl, -⟩ := exists_cons_of_read _ agrees got ⟨_, rfl⟩
      have brace : Json.nextName first ('\x7d' :: cs) = .ok (none, cs) := by
        cases first <;> rfl
      rw [Json.RecordShape.readMembers, brace] at got
      simp only [bind, Except.bind] at got
      split at got
      · cases got
      · cases got
        exact ⟨rfl, trivial⟩
  | cons field fields ih =>
    intro more cs a rest agrees got
    cases fuel with
    | zero => cases got
    | succ fuel =>
      generalize rest_ : fields.map (fun field => (field.text, m.fieldJson field)) = row at *
      have text : membersText first ((field.text, m.fieldJson field) :: row) =
          (if first then [] else [',']) ++ Json.quote field.text ++
            ([':'] ++ (chars (m.fieldJson field) ++ membersText false row)) := by
        rw [membersText, Json.membersTail_eq, List.append_assoc]
        rfl
      rw [List.map_cons, rest_, text] at agrees ⊢
      obtain ⟨found, after, named, got⟩ := exists_of_bind got
      obtain ⟨rfl, inside, rfl⟩ := (Json.takes_nextName first field.text).step agrees named
      simp only [find?_jsonField, FieldName.ofText?_text, Option.map_some] at got
      split at got
      · cases got
      · obtain ⟨t, rfl, valued⟩ := exists_cons_of_read (fun cs => Json.colon cs >>= _) inside got ⟨_, rfl⟩
        obtain ⟨draft, beyond, taken, later⟩ := exists_of_bind got
        have leaves := Json.leavesNumber_membersText row more
        rcases (takesValue_readField field depth d).step leaves valued taken with
          ⟨rfl, last⟩ | stuck
        · obtain ⟨rfl, -⟩ := ih fuel false draft _ _ _ _ last later
          simp [List.append_assoc]
        · obtain ⟨fault, failed⟩ := readMembers_of_isStuck stuck depth fuel draft
          rw [failed] at later
          cases later

/-- A message is taken whole. -/
theorem takes_readJson (m : Message) : Takes readJson (chars m.json) fun _ => True := by
  rw [json_eq, Json.chars_obj]
  intro more cs a rest agrees got
  obtain ⟨draft, end_, fields, given⟩ := exists_of_bind got
  have left : end_ = rest := by
    simp only at given
    split at given
    · cases given
      rfl
    · cases given
  subst left
  obtain ⟨t, rfl, inside⟩ := exists_cons_of_read _ agrees fields ⟨_, rfl⟩
  obtain ⟨rfl, -⟩ := takes_readMembers FieldName.all _ _ _ _ _ _ _ _ inside fields
  exact ⟨rfl, trivial⟩

end Texts

/-- No part of what is written for a message, cut short at any byte or at any character, is a message to whoever
reads it; nor is it refused as one that cannot be routed. Lengths are written as numbers of 64 bits, which nothing
in memory exceeds. -/
theorem refuses_cut (m : Message) :
    (m.encode.length < 2 ^ 64 → ∀ cut, cut <+: m.encode → cut ≠ m.encode →
      ∃ text, decode cut = .error (.decode text)) ∧
    ∀ cut : String, cut.toList <+: m.toJson.toList → cut ≠ m.toJson →
      ∃ text, ofJson cut = .error (.decode text) := by
  constructor
  · intro fits cut agrees short
    obtain ⟨fault, failed⟩ := (takes_decodeFields fits).error_of_cut agrees short
    exact ⟨fault.message, by rw [decode, failed]⟩
  · intro cut agrees short
    have written : m.toJson.toList = chars m.json := String.toList_ofList
    have differs : cut.toList ≠ chars m.json := fun same =>
      short (String.toList_inj.1 (same.trans written.symm))
    obtain ⟨fault, failed⟩ := (takes_readJson m).error_of_cut (written ▸ agrees) differs
    refine ⟨fault.message, ?_⟩
    rw [ofJson, Json.finish, failed]
    rfl

section Samples

open Fixtures

theorem refuses_cut_inDetail :
    (acmeInDetail "c-1").encode.length < 2 ^ 64 ∧
      (∃ text, decode ((acmeInDetail "c-1").encode.take 99) = .error (.decode text)) ∧
      ∃ text, ofJson (String.ofList (acmeInDetail "c-1").toJson.toList.dropLast) = .error (.decode text) := by
  have fits : (acmeInDetail "c-1").encode.length < 2 ^ 64 := by decide +kernel
  have short : (acmeInDetail "c-1").encode.take 99 ≠ (acmeInDetail "c-1").encode := by decide +kernel
  have written : (acmeInDetail "c-1").toJson.toList ≠ [] := by
    rw [toJson, Json.compact, String.toList_ofList, json, Json.chars_obj]
    simp
  obtain ⟨bytes, texts⟩ := refuses_cut (acmeInDetail "c-1")
  refine ⟨fits, bytes fits _ (List.take_prefix _ _) short, texts _ ?_ fun same => ?_⟩
  · rw [String.toList_ofList]
    exact List.dropLast_prefix _
  · have shorter := congrArg (fun text => text.toList.length) same
    simp only [String.toList_ofList, List.length_dropLast] at shorter
    have some_ := List.length_pos_iff.2 written
    omega

end Samples

end Replica.Message

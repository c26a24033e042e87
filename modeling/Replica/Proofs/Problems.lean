import Replica.Proofs.Merge
import Replica.Proofs.Sample
/-! What a refused message is told. A snapshot is checked entry by entry, and combined checks keep the
reasons of both sides, so the reasons of a refusal are the list of all that is wrong with the snapshot, in
the order of the schema and with the deletion mark last. A message is refused for them exactly if the merge
looks at its snapshot at all. -/
namespace Replica

theorem Value.isNull_iff {value : Value} : value.isNull = true ↔ value = .null := by
  unfold isNull null
  rw [Value.ext_json_iff]
  cases value.json <;> simp

namespace Validation

theorem reasons_check (condition : Bool) (reason : String) :
    (check condition reason).reasons = if condition then [] else [reason] := by
  cases condition <;> rfl

/-- A check that has reasons whenever it fails is known by its reasons. -/
theorem eq_invalid_iff {outcome : Validation} (told : outcome.reasons = [] ↔ outcome = .valid)
    {reasons : List String} :
    outcome = .invalid reasons ↔ reasons ≠ [] ∧ outcome.reasons = reasons := by
  cases outcome with
  | valid => simp [Validation.reasons, eq_comm]
  | invalid given =>
    have some : given ≠ [] := by simpa [Validation.reasons] using told
    constructor
    · rintro ⟨⟩
      exact ⟨some, rfl⟩
    · rintro ⟨-, rfl⟩
      rfl

end Validation

namespace Schema

/-- The entries, in the order of the schema, of fields that have to be there and are absent or null. -/
def missing (schema : Schema) (s : Snapshot) : List FieldSpec :=
  schema.fields.filter fun spec =>
    spec.required ∧ (s.get? spec.name = none ∨ s.get? spec.name = some .null)

/-- The field of the deletion mark, if the mark is there and neither null nor a truth value. -/
def oddMark (schema : Schema) (s : Snapshot) : Option String :=
  schema.softDelete.filter fun name =>
    (s.get? name).any fun value => value ≠ .null ∧ value.bool? = none

/-- All that is wrong with a snapshot: unless the entity is deleted, each entry of a missing field, and then
an odd deletion mark. -/
def problems (schema : Schema) (action : Action) (s : Snapshot) : List String :=
  (if action = .deleted then []
    else (schema.missing s).map fun spec => "missing required field `" ++ spec.name ++ "`") ++
  (schema.oddMark s).toList.map fun name => "`" ++ name ++ "` must be a boolean"

/-- The check of an entry has something to tell exactly if the field is absent or null. -/
theorem reasons_checkField (s : Snapshot) (spec : FieldSpec) :
    (checkField s spec).reasons =
      if s.get? spec.name = none ∨ s.get? spec.name = some .null then
        ["missing required field `" ++ spec.name ++ "`"]
      else [] := by
  rw [checkField, Validation.reasons_check, Snapshot.has]
  cases found : s.get? spec.name with
  | none => simp
  | some value => cases null : value.isNull <;> simp [← Value.isNull_iff, null]

theorem reasons_checkMark (schema : Schema) (s : Snapshot) :
    (schema.checkMark s).reasons =
      (schema.oddMark s).toList.map fun name => "`" ++ name ++ "` must be a boolean" := by
  unfold checkMark oddMark
  cases schema.softDelete with
  | none => rfl
  | some name =>
    rw [Validation.reasons_check, Option.filter_some]
    cases found : s.get? name with
    | none => simp
    | some value =>
      cases null : value.isNull <;> cases told : value.bool? <;>
        simp [← Value.isNull_iff, null, told]

/-- The check of a schema has all problems to tell, and nothing else. -/
theorem reasons_check (schema : Schema) (action : Action) (s : Snapshot) :
    (schema.check s (!action.isDeletion)).reasons = schema.problems action s := by
  have fields : (schema.fields.filter (·.required)).flatMap (fun spec => (checkField s spec).reasons) =
      (schema.missing s).map fun spec => "missing required field `" ++ spec.name ++ "`" := by
    unfold missing
    induction schema.fields with
    | nil => rfl
    | cons spec specs ih =>
      rw [List.filter_cons, List.filter_cons]
      cases required : spec.required with
      | false => simpa using ih
      | true =>
        rw [if_pos rfl, List.flatMap_cons, ih, reasons_checkField]
        split <;> rename_i absent <;> simp [absent]
  rw [check, Validation.reasons_both, Validation.reasons_all, reasons_checkMark, problems]
  congr 1
  cases action with
  | deleted => simp [Action.isDeletion]
  | _ => simpa [Action.isDeletion, List.flatMap_map] using fields

theorem check_eq_invalid_iff {schema : Schema} {action : Action} {s : Snapshot}
    {reasons : List String} :
    schema.check s (!action.isDeletion) = .invalid reasons ↔
      reasons ≠ [] ∧ schema.problems action s = reasons := by
  rw [Validation.eq_invalid_iff reasons_check_eq_nil_iff, reasons_check]

end Schema

namespace Resolution

/-- A merge that looks at the snapshot fails exactly if something is wrong with it. -/
theorem resolve_eq_error_iff_of_newer {m : Message} {current : Option Record} {schema : Schema}
    {error : SyncError} (newer : ∀ record, current = some record → record.lastSyncedAt < m.emittedAt)
    (needed : ¬ (m.action = .deleted ∧ current = none)) :
    resolve m current schema = .error error ↔
      ∃ reasons, schema.check m.snapshot (!m.action.isDeletion) = .invalid reasons ∧
        error = .malformedSnapshot m.key reasons := by
  unfold resolve
  cases schema.check m.snapshot (!m.action.isDeletion) with
  | valid => cases current <;> grind
  | invalid reasons =>
    cases current with
    | none =>
      have lives : m.action.isDeletion = false := by simpa [Action.isDeletion] using needed
      simp [lives, eq_comm]
    | some record =>
      have late := Stamp.not_le.2 (newer record rfl)
      simp [late, eq_comm]

/-- A merge fails exactly if the message is neither outdated by the record there nor the deletion of an
entity never seen, and something is wrong with its snapshot. It is refused as malformed then, and the
reasons are all that is wrong, without exception and in order. -/
theorem refused_iff_problems {m : Message} {current : Option Record} {schema : Schema}
    {error : SyncError} :
    resolve m current schema = .error error ↔
      (∀ record, current = some record → record.lastSyncedAt < m.emittedAt) ∧
      ¬ (m.action = .deleted ∧ current = none) ∧
      schema.problems m.action m.snapshot ≠ [] ∧
      error = .malformedSnapshot m.key (schema.problems m.action m.snapshot) := by
  by_cases newer : ∀ record, current = some record → record.lastSyncedAt < m.emittedAt
  · by_cases needed : m.action = .deleted ∧ current = none
    · obtain ⟨deletion, rfl⟩ := needed
      simp [resolve, Action.isDeletion, deletion]
    · rw [resolve_eq_error_iff_of_newer newer needed]
      constructor
      · rintro ⟨reasons, refused, rfl⟩
        obtain ⟨some, rfl⟩ := Schema.check_eq_invalid_iff.1 refused
        exact ⟨newer, needed, some, rfl⟩
      · rintro ⟨-, -, some, rfl⟩
        exact ⟨_, Schema.check_eq_invalid_iff.2 ⟨some, rfl⟩, rfl⟩
  · obtain ⟨record, rfl, asNew⟩ : ∃ record, current = some record ∧
        m.emittedAt ≤ record.lastSyncedAt := by
      simpa [← Stamp.not_le] using newer
    simp [resolve, asNew, ← Stamp.not_le]

open Fixtures in
/-- Both entries of the name are told, and the mark after them. -/
example :
    resolve (acmeUpdated (SortedMap.ofPairs [("isDeleted", .str "yes"), ("name", .null)]) (stamp 2))
      (some { key := acme, fields := ∅, lastSyncedAt := stamp 1, isDeleted := false })
      { kind := "company", fields := [⟨"name", true⟩, ⟨"city", false⟩, ⟨"name", true⟩]
        softDelete := some "isDeleted" } =
      .error (.malformedSnapshot acme
        ["missing required field `name`", "missing required field `name`",
          "`isDeleted` must be a boolean"]) := by
  rfl

end Resolution

end Replica

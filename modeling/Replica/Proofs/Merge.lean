import Replica.Proofs.Records
import Replica.Proofs.Shape
import Replica.Dispatch.Basic
/-! What merging a message into a record has written. Whatever record the merge starts from, the key,
the stamp and the deletion mark of its result are the message's own; for a message that is not a
deletion all of the result is. Only the fields that a deletion does not carry, and the outcome that is
reported, come from the record merged into. -/
namespace Replica

namespace Snapshot

/-- In an overlay the newer snapshot is looked up first. -/
theorem get?_overlay (s newer : Snapshot) (name : String) :
    (overlay s newer).get? name = (newer.get? name).or (s.get? name) := by
  rw [overlay, SortedMap.get?_foldl_insert, SortedMap.ofPairs_entries]

/-- A projection keeps what is looked up under the names it is made for, and nothing else. -/
theorem get?_project (s : Snapshot) (names : List String) (name : String) :
    (project s names).get? name = if name ∈ names then s.get? name else none := by
  apply Option.ext
  intro value
  rw [SortedMap.get?_eq_some_iff]
  change (name, value) ∈ s.entries.filter _ ↔ _
  rw [List.mem_filter, List.contains_iff_mem, ← SortedMap.get?_eq_some_iff]
  split <;> simp_all

/-- Two snapshots look alike under an overlay exactly if they agree on every field that it leaves
uncovered. -/
theorem overlay_eq_overlay_iff (a b newer : Snapshot) :
    overlay a newer = overlay b newer ↔
      ∀ name, newer.get? name = none → a.get? name = b.get? name := by
  constructor
  · intro equal name uncovered
    have looked := congrArg (SortedMap.get? · name) equal
    simpa [get?_overlay, uncovered] using looked
  · intro agree
    apply SortedMap.ext_get?
    intro name
    rw [get?_overlay, get?_overlay]
    cases covered : newer.get? name with
    | none => simpa using agree name covered
    | some value => simp

end Snapshot

namespace Resolution

/-- The record that is to be written, if any, with the outcome reported once it is. -/
def written? : Resolution → Option (Record × Outcome)
  | write record change => some (record, .applied change)
  | stale _ => none
  | tombstone record => some (record, .noop)

/-- Merging a message into the record there, or into none, has a record written, and an outcome
reported once it is. -/
def Merges (m : Message) (current : Option Record) (schema : Schema) (record : Record)
    (outcome : Outcome) : Prop :=
  ∃ resolution, resolve m current schema = .ok resolution ∧
    resolution.written? = some (record, outcome)

/-- The record with the key, the stamp and the deletion mark of a message, and some fields. -/
def recordOf (m : Message) (schema : Schema) (fields : Snapshot) : Record :=
  { key := m.key, fields, lastSyncedAt := m.emittedAt, isDeleted := deletedAfter m schema }

/-- The fields that a message leaves of a record: a deletion keeps those that it does not carry. -/
def fieldsOver (m : Message) (schema : Schema) (old : Snapshot) : Snapshot :=
  if m.action.isDeletion then Snapshot.overlay old (schema.project m.snapshot)
  else schema.project m.snapshot

variable {m : Message} {schema : Schema} {record : Record} {outcome : Outcome}

theorem tombstoneOf_eq_recordOf (schema : Schema) (deletion : m.action.isDeletion = true) :
    tombstoneOf m = recordOf m schema ∅ := by
  simp [tombstoneOf, recordOf, deletedAfter, deletion]

/-- What is written for an entity never seen. -/
theorem merges_none_iff :
    Merges m none schema record outcome ↔
      m.action.isDeletion = true ∧ record = recordOf m schema ∅ ∧ outcome = .noop ∨
      m.action.isDeletion = false ∧ schema.check m.snapshot true = .valid ∧
        record = recordOf m schema (schema.project m.snapshot) ∧ outcome = .applied .inserted := by
  cases deletion : m.action.isDeletion with
  | true =>
    simp [Merges, resolve, deletion, written?, tombstoneOf_eq_recordOf schema deletion,
      eq_comm (a := record), eq_comm (a := outcome)]
  | false =>
    cases fits : schema.check m.snapshot true with
    | valid =>
      simp [Merges, resolve, deletion, fits, written, written?, recordOf, eq_comm (a := record),
        eq_comm (a := outcome)]
    | invalid reasons => simp [Merges, resolve, deletion, fits]

/-- What is written over a record. -/
theorem merges_some_iff {old : Record} :
    Merges m (some old) schema record outcome ↔
      old.lastSyncedAt < m.emittedAt ∧
        schema.check m.snapshot (!m.action.isDeletion) = .valid ∧
        record = recordOf m schema (fieldsOver m schema old.fields) ∧
        outcome = .applied (changeOf old.isDeleted (deletedAfter m schema)) := by
  by_cases stale : m.emittedAt ≤ old.lastSyncedAt
  · have notNewer : ¬ old.lastSyncedAt < m.emittedAt := by
      rw [← Stamp.not_le]
      exact fun h => h stale
    simp [Merges, resolve, stale, notNewer, written?]
  · have newer := Stamp.not_le.1 stale
    cases fits : schema.check m.snapshot (!m.action.isDeletion) with
    | valid =>
      have resolved : resolve m (some old) schema =
          .ok (.write (recordOf m schema (fieldsOver m schema old.fields))
            (changeOf old.isDeleted (deletedAfter m schema))) := by
        simp [resolve, stale, fits, written, recordOf, fieldsOver]
      simp [Merges, resolved, written?, newer, eq_comm (a := record), eq_comm (a := outcome)]
    | invalid reasons => simp [Merges, resolve, stale, newer, fits]

/-- Whatever it was merged into, a record written has the key, the stamp and the deletion mark of the
message, and for a message that is not a deletion its fields too. -/
theorem Merges.eq_recordOf {current : Option Record}
    (merges : Merges m current schema record outcome) :
    ∃ fields, record = recordOf m schema fields ∧
      (m.action.isDeletion = false → fields = schema.project m.snapshot) := by
  cases current with
  | none =>
    obtain ⟨deletion, rfl, -⟩ | ⟨-, -, rfl, -⟩ := merges_none_iff.1 merges
    · exact ⟨_, rfl, fun not => by simp [deletion] at not⟩
    · exact ⟨_, rfl, fun _ => rfl⟩
  | some old =>
    obtain ⟨-, -, rfl, -⟩ := merges_some_iff.1 merges
    exact ⟨_, rfl, fun not => by simp [fieldsOver, not]⟩

theorem Merges.key_eq {current : Option Record} (merges : Merges m current schema record outcome) :
    record.key = m.key := by
  obtain ⟨_, rfl, -⟩ := merges.eq_recordOf
  rfl

theorem Merges.lastSyncedAt_eq {current : Option Record}
    (merges : Merges m current schema record outcome) : record.lastSyncedAt = m.emittedAt := by
  obtain ⟨_, rfl, -⟩ := merges.eq_recordOf
  rfl

theorem Merges.isDeleted_eq {current : Option Record}
    (merges : Merges m current schema record outcome) :
    record.isDeleted = deletedAfter m schema := by
  obtain ⟨_, rfl, -⟩ := merges.eq_recordOf
  rfl

/-- Of the fields that it leaves uncovered, a deletion keeps what the record merged into had. -/
theorem Merges.get?_fields {seen : Option Record} (merges : Merges m seen schema record outcome)
    (deletion : m.action.isDeletion = true) {name : String}
    (uncovered : (schema.project m.snapshot).get? name = none) :
    record.fields.get? name = seen.bind (·.fields.get? name) := by
  cases seen with
  | none =>
    obtain ⟨-, rfl, -⟩ | ⟨lives, -⟩ := merges_none_iff.1 merges
    · rfl
    · simp [deletion] at lives
  | some read =>
    obtain ⟨-, -, rfl, -⟩ := merges_some_iff.1 merges
    simp [recordOf, fieldsOver, deletion, Snapshot.get?_overlay, uncovered]

/-- A message that is not a deletion passed the check if it was merged. -/
theorem Merges.check_eq_valid {current : Option Record}
    (merges : Merges m current schema record outcome) (lives : m.action.isDeletion = false) :
    schema.check m.snapshot true = .valid := by
  cases current with
  | none =>
    obtain ⟨deletion, -⟩ | ⟨-, fits, -⟩ := merges_none_iff.1 merges
    · simp [deletion] at lives
    · exact fits
  | some old =>
    obtain ⟨-, fits, -⟩ := merges_some_iff.1 merges
    simpa [lives] using fits

/-- A message that is not a deletion would have written the same record for an entity never seen. -/
theorem Merges.resolve_none {current : Option Record}
    (merges : Merges m current schema record outcome) (lives : m.action.isDeletion = false) :
    resolve m none schema = .ok (.write record .inserted) := by
  obtain ⟨fields, rfl, whole⟩ := merges.eq_recordOf
  simp [resolve, lives, merges.check_eq_valid lives, written, whole lives, recordOf]

/-- A merge that writes reports that it was merged. -/
theorem Merges.state_eq {current : Option Record}
    (merges : Merges m current schema record outcome) : outcome.state = .applied := by
  cases current with
  | none => obtain ⟨-, -, rfl⟩ | ⟨-, -, -, rfl⟩ := merges_none_iff.1 merges <;> rfl
  | some old =>
    obtain ⟨-, -, -, rfl⟩ := merges_some_iff.1 merges
    rfl

/-- A merge of a message that is not a deletion reports a change. -/
theorem Merges.exists_change {current : Option Record}
    (merges : Merges m current schema record outcome) (lives : m.action.isDeletion = false) :
    ∃ change, outcome = .applied change := by
  cases current with
  | none =>
    obtain ⟨deletion, -⟩ | ⟨-, -, -, reported⟩ := merges_none_iff.1 merges
    · simp [deletion] at lives
    · exact ⟨_, reported⟩
  | some old =>
    obtain ⟨-, -, -, reported⟩ := merges_some_iff.1 merges
    exact ⟨_, reported⟩

/-- Merging fails only by refusing the snapshot, and it refuses it only if the check does. -/
theorem error_of_resolve {current : Option Record} {error : SyncError}
    (refused : resolve m current schema = .error error) :
    schema.check m.snapshot (!m.action.isDeletion) ≠ .valid ∧
      ∃ reasons, error = .malformedSnapshot m.key reasons := by
  unfold resolve at refused
  cases fits : schema.check m.snapshot (!m.action.isDeletion) with
  | valid => grind
  | invalid reasons => exact ⟨by simp, reasons, by grind⟩

/-- A merge discards the message exactly if the record there is as new or newer. -/
theorem resolve_eq_stale_iff {current : Option Record} {stamp : Stamp} :
    resolve m current schema = .ok (.stale stamp) ↔
      ∃ record, current = some record ∧ m.emittedAt ≤ record.lastSyncedAt ∧
        stamp = record.lastSyncedAt := by
  unfold resolve written
  grind

end Resolution

end Replica

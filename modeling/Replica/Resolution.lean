import Replica.Schema
import Replica.Store.Basic
/-! The merge of a message into the record of its entity. The newer stamp wins; a deletion keeps what
was known of the entity and does not come with it; and the deletion of an entity never seen leaves
a mark, so that older messages that arrive later change nothing. -/
namespace Replica

/-- What a write does to a record. -/
inductive Change where
  /-- The first record of the entity. -/
  | inserted
  /-- Other fields, the same deletion mark. -/
  | updated
  /-- The entity was there and is deleted now. -/
  | softDeleted
  /-- The entity was deleted and is there again. -/
  | restored
  deriving DecidableEq, Repr

namespace Change

/-- The name of a change. -/
def text : Change → String
  | inserted => "Inserted"
  | updated => "Updated"
  | softDeleted => "SoftDeleted"
  | restored => "Restored"

/-- All changes by name. -/
def byName : List (String × Change) :=
  [inserted, updated, softDeleted, restored].map fun change => (change.text, change)

end Change

/-- The next state of an entity's record. -/
inductive Resolution where
  /-- The record is written, with this effect. -/
  | write (record : Record) (change : Change)
  /-- The record there is as new or newer, with this stamp. -/
  | stale (current : Stamp)
  /-- A deleted record without fields is written for an entity never seen. -/
  | tombstone (record : Record)
  deriving DecidableEq

namespace Resolution

/-- The deleted record of an entity never seen. -/
def tombstoneOf (m : Message) : Record :=
  { key := m.key, fields := ∅, lastSyncedAt := m.emittedAt, isDeleted := true }

/-- The deletion mark after a message. -/
def deletedAfter (m : Message) (schema : Schema) : Bool :=
  m.action.isDeletion || schema.isSoftDeleted m.snapshot

/-- The effect of replacing a record. -/
def changeOf (wasDeleted isDeleted : Bool) : Change :=
  match wasDeleted, isDeleted with
  | false, true => .softDeleted
  | true, false => .restored
  | _, _ => .updated

/-- What is written for a message of the right shape over the record there. -/
def written (m : Message) (current : Option Record) (schema : Schema) : Resolution :=
  let incoming := schema.project m.snapshot
  let isDeleted := deletedAfter m schema
  let record (fields : Snapshot) : Record :=
    { key := m.key, fields, lastSyncedAt := m.emittedAt, isDeleted }
  match current with
  | none => .write (record incoming) .inserted
  | some old =>
    let fields := if m.action.isDeletion then Snapshot.overlay old.fields incoming else incoming
    .write (record fields) (changeOf old.isDeleted isDeleted)

/-- Merges a message into the record there, refusing a snapshot that is not of the schema's shape. -/
def resolve (m : Message) (current : Option Record) (schema : Schema) :
    Except SyncError Resolution :=
  let merged : Except SyncError Resolution :=
    match schema.check m.snapshot (!m.action.isDeletion) with
    | .invalid reasons => .error (.malformedSnapshot m.key reasons)
    | .valid => .ok (written m current schema)
  match current with
  | none => if m.action.isDeletion then .ok (.tombstone (tombstoneOf m)) else merged
  | some record =>
    if m.emittedAt ≤ record.lastSyncedAt then .ok (.stale record.lastSyncedAt) else merged

end Resolution

end Replica

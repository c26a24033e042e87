import Replica.Error
/-! The local copies of foreign entities. A write takes effect only if it is newer than what is
there, so for each entity the store holds the record with the greatest stamp ever written. -/
namespace Replica

/-- The local copy of a foreign entity. -/
structure Record where
  /-- The entity. -/
  key : EntityKey
  /-- The fields that are kept. -/
  fields : Snapshot
  /-- The stamp of the message applied last. -/
  lastSyncedAt : Stamp
  /-- The entity is deleted. -/
  isDeleted : Bool
  deriving DecidableEq

/-- Whether the record is visible to normal reads. -/
def Record.isLive (r : Record) : Bool := !r.isDeleted

/-- What became of a write. -/
inductive Upsert where
  /-- There was no record. -/
  | inserted
  /-- An older record was replaced. -/
  | replaced
  /-- The record there is as new or newer, with this stamp; nothing was written. -/
  | stale (current : Stamp)
  deriving DecidableEq

/-- The name of what became of a write. -/
def Upsert.text : Upsert → String
  | inserted => "Inserted"
  | replaced => "Replaced"
  | stale _ => "Stale"

/-- Whether something was written. -/
def Upsert.isWritten : Upsert → Bool
  | inserted => true
  | replaced => true
  | stale _ => false

/-- Records by entity. -/
abbrev Records := SortedMap EntityKey Record

namespace Records

/-- Writes a record unless the one there is as new or newer. -/
def upsert (records : Records) (record : Record) : Upsert × Records :=
  match SortedMap.get? records record.key with
  | none => (.inserted, SortedMap.insert records record.key record)
  | some current =>
    if record.lastSyncedAt ≤ current.lastSyncedAt then (.stale current.lastSyncedAt, records)
    else (.replaced, SortedMap.insert records record.key record)

/-- The records of a kind by id, deleted ones only if asked for. -/
def ofKind (records : Records) (kind : String) (includeDeleted : Bool) : List Record :=
  (SortedMap.values records).filter fun r => r.key.kind == kind && (includeDeleted || r.isLive)

end Records

/-- A store of records that can be told to fail writes. -/
structure Store where
  /-- The records. -/
  records : Records := ∅
  /-- How many of the next writes fail. -/
  failingWrites : Nat := 0
  deriving DecidableEq

namespace Store

/-- The error of a write that was told to fail. -/
def injectedFailure : SyncError := .storage "injected write failure" true

/-- Makes the next writes fail, this many from now on. -/
def failNextWrites (store : Store) (count : Nat) : Store := { store with failingWrites := count }

/-- The record of an entity, deleted or not. -/
def load (store : Store) (key : EntityKey) : Option Record := SortedMap.get? store.records key

/-- Writes a record unless the one there is as new or newer. -/
def upsertIfNewer (store : Store) (record : Record) : Except SyncError Upsert × Store :=
  match store.failingWrites with
  | left + 1 => (.error injectedFailure, { store with failingWrites := left })
  | 0 =>
    let (outcome, records) := Records.upsert store.records record
    (.ok outcome, { store with records })

/-- Whether an entity is there and not deleted. -/
def isLive (store : Store) (key : EntityKey) : Bool := (store.load key).any Record.isLive

end Store

end Replica

import Replica.Store.Basic
/-! What applying messages asks of its surroundings: whether an entity is there, what is stored for
it, and a conditional write. Each is one atomic step on a state of any kind, and each may fail. -/
namespace Replica

/-- The surroundings over a state `σ`. -/
structure Backend (σ : Type) where
  /-- Whether an entity is there and not deleted. -/
  probe : EntityKey → σ → Except SyncError Bool × σ
  /-- The record of an entity. -/
  load : EntityKey → σ → Except SyncError (Option Record) × σ
  /-- Writes a record unless the one there is as new or newer. -/
  upsert : Record → σ → Except SyncError Upsert × σ

namespace Backend

variable {σ : Type}

/-- An entity is there if its record is loaded and is live. -/
def probeByLoad (load : EntityKey → σ → Except SyncError (Option Record) × σ)
    (key : EntityKey) (s : σ) : Except SyncError Bool × σ :=
  match load key s with
  | (.ok record, s) => (.ok (record.any Record.isLive), s)
  | (.error error, s) => (.error error, s)

/-- The same surroundings, with a fixed set of entities that are there. -/
def withKnown (backend : Backend σ) (known : List EntityKey) : Backend σ :=
  { backend with probe := fun key s => (.ok (known.contains key), s) }

end Backend

/-- A store as surroundings: what it holds is there. -/
def Store.backend : Backend Store where
  probe := Backend.probeByLoad fun key store => (.ok (store.load key), store)
  load := fun key store => (.ok (store.load key), store)
  upsert := fun record store => store.upsertIfNewer record

/-- A call of a store. -/
inductive StoreCall where
  | load
  | upsert
  deriving DecidableEq

/-- A call that is going to fail: which kind, after how many more of its kind, and how. -/
structure Fault where
  /-- The kind of call. -/
  call : StoreCall
  /-- How many calls of the kind go through before. -/
  skip : Nat
  /-- The error. -/
  error : SyncError
  deriving DecidableEq

/-- A store whose calls fail as planned, and in which another writer may come first. -/
structure FaultyStore where
  /-- The store. -/
  store : Store := {}
  /-- The faults to come. Of each kind only the first counts down. -/
  faults : List Fault := []
  /-- A record that another writes just before the next write. -/
  race : Option Record := none
  deriving DecidableEq

namespace FaultyStore

/-- Counts a call against the first fault of its kind: the error if it is due, and the faults
left. -/
def strike (call : StoreCall) : List Fault → Option SyncError × List Fault
  | [] => (none, [])
  | fault :: rest =>
    if fault.call = call then
      match fault.skip with
      | 0 => (some fault.error, rest)
      | skip + 1 => (none, { fault with skip } :: rest)
    else
      let (error, rest) := strike call rest
      (error, fault :: rest)

/-- The record of an entity, unless a fault is due. -/
def load (key : EntityKey) (s : FaultyStore) : Except SyncError (Option Record) × FaultyStore :=
  match strike .load s.faults with
  | (some error, faults) => (.error error, { s with faults })
  | (none, faults) => (.ok (s.store.load key), { s with faults })

/-- Writes the record that races a write, if there is one, and then the record itself; if the first
write fails, the second is not made. -/
def writeAfterRace (record : Record) (race : Option Record) (store : Store) :
    Except SyncError Upsert × Store :=
  match race with
  | none => store.upsertIfNewer record
  | some first =>
    match store.upsertIfNewer first with
    | (.error error, store) => (.error error, store)
    | (.ok _, store) => store.upsertIfNewer record

/-- Writes a record, unless a fault is due; a record that races it is written first. -/
def upsert (record : Record) (s : FaultyStore) : Except SyncError Upsert × FaultyStore :=
  match strike .upsert s.faults with
  | (some error, faults) => (.error error, { s with faults })
  | (none, faults) =>
    let (outcome, store) := writeAfterRace record s.race s.store
    (outcome, { store, faults, race := none })

/-- The store as surroundings. -/
def backend : Backend FaultyStore where
  probe := Backend.probeByLoad load
  load := load
  upsert := upsert

end FaultyStore

end Replica

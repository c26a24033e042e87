import Replica.Snapshot
import Replica.Stamp
import Replica.Text.Blank
import Replica.Validation
/-! Messages between services: what happened to an entity, its fields at that moment, and the stamp
that orders the message among all messages of the entity. -/
namespace Replica

/-- What happened to an entity. -/
inductive Action where
  | created
  | updated
  | deleted
  deriving DecidableEq, Repr

namespace Action

/-- The name on the wire. -/
def text : Action → String
  | created => "Created"
  | updated => "Updated"
  | deleted => "Deleted"

/-- All actions by name. -/
def byName : List (String × Action) :=
  [("Created", created), ("Updated", updated), ("Deleted", deleted)]

/-- Whether the entity is gone. -/
def isDeletion (action : Action) : Bool := action = deleted

end Action

/-- An entity of another service: its kind and its id there. -/
structure EntityKey where
  /-- The kind. -/
  kind : String
  /-- The id in the service that owns the entity. -/
  id : String
  deriving DecidableEq, Repr

namespace EntityKey

/-- Keys are ordered by kind, then by id, both by bytes. -/
def order : EntityKey → EntityKey → Ordering :=
  compareLex (compareOn EntityKey.kind) (compareOn EntityKey.id)

instance : Ord EntityKey := ⟨order⟩
instance : Std.TransOrd EntityKey :=
  inferInstanceAs (Std.TransCmp (compareLex (compareOn EntityKey.kind) (compareOn EntityKey.id)))

/-- Kind and id with a stroke between. -/
def text (key : EntityKey) : String := key.kind ++ "/" ++ key.id

end EntityKey

/-- A message about one entity. -/
structure Message where
  /-- The id of the entity. -/
  entityId : String
  /-- The kind of the entity. -/
  entityKind : String
  /-- What happened. -/
  action : Action
  /-- The fields at that moment. -/
  snapshot : Snapshot
  /-- Orders the messages of one entity. -/
  emittedAt : Stamp
  /-- The message was asked for, rather than caused by a change. -/
  isForceSync : Bool
  deriving DecidableEq

namespace Message

/-- The entity that the message is about. -/
def key (m : Message) : EntityKey := ⟨m.entityKind, m.entityId⟩

/-- Whether the message can be routed at all. -/
def validate (m : Message) : Validation :=
  (Validation.check (!Text.isBlankText m.entityId) "entityId is empty").both
    (Validation.check (!Text.isBlankText m.entityKind) "entityKind is empty")

end Message

end Replica

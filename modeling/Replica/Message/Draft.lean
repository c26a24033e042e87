import Replica.Message
/-! Messages on the wire. Both encodings write the same six fields and read them into a draft, in
which a field is there or not; snapshot and force flag may be left out. -/
namespace Replica

/-- Why a message could not be written or read. -/
inductive ProtocolError where
  /-- The message could not be written. -/
  | encode (text : String)
  /-- The text or the bytes are no message. -/
  | decode (text : String)
  /-- The message is well formed but cannot be routed. -/
  | invalid (reasons : List String)
  deriving DecidableEq, Repr

namespace ProtocolError

/-- The message of an error. -/
def text : ProtocolError → String
  | encode text => "encode error: " ++ text
  | decode text => "decode error: " ++ text
  | invalid reasons => "invalid message: " ++ "; ".intercalate reasons

/-- The single problems of an error. -/
def reasons : ProtocolError → List String
  | encode text => [text]
  | decode text => [text]
  | invalid reasons => reasons

end ProtocolError

namespace Message

/-- The names of the fields on the wire. -/
inductive FieldName where
  | entityId
  | entityKind
  | crudAction
  | snapshot
  | emittedAt
  | isForceSync
  deriving DecidableEq, Repr

namespace FieldName

/-- All names in the order in which fields are written. -/
def all : List FieldName := [entityId, entityKind, crudAction, snapshot, emittedAt, isForceSync]

/-- The name as text. -/
def text : FieldName → String
  | entityId => "entityId"
  | entityKind => "entityKind"
  | crudAction => "crudAction"
  | snapshot => "snapshot"
  | emittedAt => "emittedAt"
  | isForceSync => "isForceSync"

/-- The name that a text spells. -/
def ofText? (s : String) : Option FieldName := all.find? (·.text == s)

/-- The fields that may be left out. -/
def mayOmit : FieldName → Bool
  | snapshot => true
  | isForceSync => true
  | _ => false

end FieldName

/-- The fields of a message read so far. -/
structure Draft where
  entityId : Option String := none
  entityKind : Option String := none
  crudAction : Option Action := none
  snapshot : Option Snapshot := none
  emittedAt : Option Stamp := none
  isForceSync : Option Bool := none
  deriving DecidableEq

namespace Draft

/-- Whether a field has been read. -/
def isSet (d : Draft) : FieldName → Bool
  | .entityId => d.entityId.isSome
  | .entityKind => d.entityKind.isSome
  | .crudAction => d.crudAction.isSome
  | .snapshot => d.snapshot.isSome
  | .emittedAt => d.emittedAt.isSome
  | .isForceSync => d.isForceSync.isSome

/-- The first field, in the order of writing, that has to be there and is not. -/
def missing? (d : Draft) : Option FieldName :=
  FieldName.all.find? fun name => !name.mayOmit && !d.isSet name

/-- The message, once no field is missing. Without a snapshot it is empty, and without the flag the
message is not forced. -/
def message? (d : Draft) : Option Message := do
  return { entityId := ← d.entityId, entityKind := ← d.entityKind, action := ← d.crudAction,
           snapshot := d.snapshot.getD ∅, emittedAt := ← d.emittedAt,
           isForceSync := d.isForceSync.getD false }

end Draft

/-- Refuses a message that cannot be routed. -/
def validated (m : Message) : Except ProtocolError Message :=
  match m.validate with
  | .valid => .ok m
  | .invalid reasons => .error (.invalid reasons)

end Message

end Replica

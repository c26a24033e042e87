import Replica.Json.Record
import Replica.Message.Draft
/-! Messages as JSON. A message is written as an object of its six fields in a fixed order, and read
from an object with the fields in any order and unknown fields skipped, or from an array. -/
namespace Replica

/-- The stamp as a number. -/
def Stamp.json (s : Stamp) : Json :=
  .num (.int s.micros (by
    have := s.inRange
    omega))

namespace Message

open Json (Reader RecordField RecordShape)

/-- The message as an object. -/
def json (m : Message) : Json :=
  .obj [
    (FieldName.entityId.text, .str m.entityId),
    (FieldName.entityKind.text, .str m.entityKind),
    (FieldName.crudAction.text, .str m.action.text),
    (FieldName.snapshot.text, m.snapshot.json),
    (FieldName.emittedAt.text, m.emittedAt.json),
    (FieldName.isForceSync.text, .bool m.isForceSync)]

/-- The message as compact JSON text. -/
def toJson (m : Message) : String := m.json.compact

/-- Reads a stamp. -/
def readStamp : Reader Stamp := fun cs => do
  let (n, cs) ← Json.whole .signed64 cs
  match Stamp.ofInt? n with
  | some stamp => return (stamp, cs)
  | none => throw (.integerOutOfRange n Json.IntKind.signed64.name)

/-- Reads a snapshot. -/
def readSnapshot (depth : Nat) : Reader Snapshot := fun cs => do
  let (members, cs) ← Json.object depth Json.tree cs
  return (Snapshot.ofMembers members, cs)

/-- Reads the value of a field into a draft. -/
def readField (name : FieldName) (depth : Nat) (d : Draft) (cs : List Char) :
    Except Json.Fault (Draft × List Char) :=
  match name with
  | .entityId => do
    let (value, cs) ← Json.text "a string" cs
    return ({ d with entityId := some value }, cs)
  | .entityKind => do
    let (value, cs) ← Json.text "a string" cs
    return ({ d with entityKind := some value }, cs)
  | .crudAction => do
    let (value, cs) ← Json.choice depth Action.byName cs
    return ({ d with crudAction := some value }, cs)
  | .snapshot => do
    let (value, cs) ← readSnapshot depth cs
    return ({ d with snapshot := some value }, cs)
  | .emittedAt => do
    let (value, cs) ← readStamp cs
    return ({ d with emittedAt := some value }, cs)
  | .isForceSync => do
    let (value, cs) ← Json.truth cs
    return ({ d with isForceSync := some value }, cs)

/-- One field of the record. -/
def jsonField (name : FieldName) : RecordField Draft :=
  { name := name.text
    isSet := fun d => d.isSet name
    read := readField name
    mayOmit := name.mayOmit
    mayEndBefore := name.mayOmit }

/-- How a message is read. -/
def shape : RecordShape Draft := ⟨"SyncMessage", FieldName.all.map jsonField, {}⟩

/-- How many containers may be open at once, the message itself included. -/
def jsonDepth : Nat := 127

/-- Reads a message without checking that it can be routed. -/
def readJson : Reader Message := fun cs => do
  let (draft, cs) ← shape.read jsonDepth cs
  match draft.message? with
  | some m => return (m, cs)
  | none => throw .endInObject

/-- Reads JSON text as a message that can be routed. -/
def ofJson (text : String) : Except ProtocolError Message :=
  match Json.finish readJson text.toList with
  | .ok m => m.validated
  | .error fault => .error (.decode fault.message)

end Message

end Replica

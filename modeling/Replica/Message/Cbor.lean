import Replica.Cbor.Reader
import Replica.Cbor.Writer
import Replica.Message.Json
/-! Messages as CBOR. A message is written as a map of its six fields in a fixed order, and read from
a map with the fields in any order, unknown fields skipped; bytes after it are left alone. -/
namespace Replica.Message

/-- The message as bytes. -/
def encode (m : Message) : List UInt8 := Cbor.ofTree m.json

/-- How many containers and tags may be open at once, the message itself included. -/
def cborDepth : Nat := 256

/-- Reads a stamp. -/
def decodeStamp : Cbor.Reader Stamp := fun bs => do
  let (n, bs) ← Cbor.anyInteger (bs.length + 1) bs
  match Stamp.ofInt? n with
  | some stamp => return (stamp, bs)
  | none => throw .integerTooLarge

/-- Reads a snapshot. -/
def decodeSnapshot (depth : Nat) : Cbor.Reader Snapshot := fun bs => do
  match ← Cbor.typedHeader bs with
  | (.map length, bs) =>
    match depth with
    | 0 => throw .tooDeep
    | depth + 1 =>
      let (members, bs) ← Cbor.members (fun _ => Cbor.typedText "string") (Cbor.tree depth) length bs
      return (Snapshot.ofMembers members, bs)
  | (head, _) => throw (.wrongType head "map")

/-- Reads the value of a field into a draft. -/
def decodeField (name : FieldName) (depth : Nat) (d : Draft) : Cbor.Reader Draft := fun bs =>
  match name with
  | .entityId => do
    let (value, bs) ← Cbor.typedText "string" bs
    return ({ d with entityId := some value }, bs)
  | .entityKind => do
    let (value, bs) ← Cbor.typedText "string" bs
    return ({ d with entityKind := some value }, bs)
  | .crudAction => do
    let (value, bs) ← Cbor.choice depth Action.byName bs
    return ({ d with crudAction := some value }, bs)
  | .snapshot => do
    let (value, bs) ← decodeSnapshot depth bs
    return ({ d with snapshot := some value }, bs)
  | .emittedAt => do
    let (value, bs) ← decodeStamp bs
    return ({ d with emittedAt := some value }, bs)
  | .isForceSync => do
    let (value, bs) ← Cbor.truth bs
    return ({ d with isForceSync := some value }, bs)

/-- Reads one entry into a draft. A known name given again is refused before its value is looked at;
the value of an unknown name is skipped. -/
def decodeEntry (depth : Nat) (d : Draft) : Cbor.Reader Draft := fun bs => do
  let (name, bs) ← Cbor.name bs
  match FieldName.all.find? fun field => name.is field.text with
  | some field =>
    if d.isSet field then throw (.duplicateField field.text) else decodeField field depth d bs
  | none =>
    let (_, bs) ← Cbor.skip depth bs
    return (d, bs)

/-- Reads a known number of entries. -/
def decodeEntries (depth : Nat) : Nat → Draft → Cbor.Reader Draft
  | 0, d, bs => .ok (d, bs)
  | n + 1, d, bs => do
    let (d, bs) ← decodeEntry depth d bs
    decodeEntries depth n d bs

/-- Reads entries until a stop. -/
def decodeEntriesUntilStop (depth : Nat) : (fuel : Nat) → Draft → Cbor.Reader Draft
  | 0, _, _ => .error .ended
  | fuel + 1, d, bs => do
    match ← Cbor.header bs with
    | (.stop, bs) => return (d, bs)
    | _ =>
      let (d, bs) ← decodeEntry depth d bs
      decodeEntriesUntilStop depth fuel d bs

/-- Reads a message without checking that it can be routed. -/
def decodeFields : Cbor.Reader Message := fun bs => do
  match ← Cbor.typedHeader bs with
  | (.map length, bs) =>
    let (draft, bs) ←
      match length with
      | some n => decodeEntries (cborDepth - 1) n {} bs
      | none => decodeEntriesUntilStop (cborDepth - 1) (bs.length + 1) {} bs
    match draft.missing?, draft.message? with
    | some name, _ => throw (.missingField name.text)
    | none, some m => return (m, bs)
    | none, none => throw .ended
  | (head, _) => throw (.wrongType head "map")

/-- Reads bytes as a message that can be routed. -/
def decode (bytes : List UInt8) : Except ProtocolError Message :=
  match decodeFields bytes with
  | .ok (m, _) => m.validated
  | .error fault => .error (.decode fault.message)

end Replica.Message

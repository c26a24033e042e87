import Replica.Json.Record
import Replica.Subscriber.Config
/-! Reading the description of a subscriber from JSON text. -/
namespace Replica.Subscriber

open Json (Reader RecordField RecordShape)

/-- Reads a text. -/
def readText : Reader String := Json.text "a string"

/-- Reads a list of texts. -/
def readTexts (depth : Nat) : Reader (List String) := Json.list depth fun _ => readText

/-- Reads a number that is not negative, or null. -/
def readCount (kind : Json.IntKind) : Reader (Option Nat) := fun cs => do
  let (n, cs) ← Json.nullable (Json.whole kind) cs
  return (n.map Int.toNat, cs)

/-- A field of a record: where its value is in the draft, and how it is read. -/
def fieldOf {δ α : Type} (name : String) (get : δ → Option α) (set : δ → α → δ)
    (read : (depth : Nat) → Reader α) (mayOmit mayEndBefore : Bool) : RecordField δ :=
  { name, mayOmit, mayEndBefore
    isSet := fun draft => (get draft).isSome
    read := fun depth draft cs => do
      let (value, cs) ← read depth cs
      return (set draft value, cs) }

/-- Reads a record into a draft and completes the draft. -/
def readRecord {δ α : Type} (shape : RecordShape δ) (complete? : δ → Option α) (depth : Nat) :
    Reader α := fun cs => do
  let (draft, cs) ← shape.read depth cs
  match complete? draft with
  | some result => return (result, cs)
  | none => throw .endInObject

/-- The fields of a reference read so far. -/
structure DependencyDraft where
  field : Option String := none
  kind : Option String := none
  isOptional : Option Bool := none

/-- How a reference is read. -/
def DependencyDraft.shape : RecordShape DependencyDraft :=
  { name := "DependencyEntry"
    blank := {}
    fields := [
      fieldOf "field" (·.field) (fun d v => { d with field := some v })
        (fun _ => readText) false false,
      fieldOf "kind" (·.kind) (fun d v => { d with kind := some v })
        (fun _ => readText) false false,
      fieldOf "optional" (·.isOptional) (fun d v => { d with isOptional := some v })
        (fun _ => Json.truth) true true] }

/-- The reference, once no field is missing. -/
def DependencyDraft.entry? (d : DependencyDraft) : Option DependencyEntry := do
  return { field := ← d.field, kind := ← d.kind, isOptional := d.isOptional.getD false }

/-- Reads a reference. -/
def readDependency : (depth : Nat) → Reader DependencyEntry :=
  readRecord DependencyDraft.shape DependencyDraft.entry?

/-- The fields of a kind's entry read so far. -/
structure HandlerDraft where
  kind : Option String := none
  fields : Option (List String) := none
  optionalFields : Option (List String) := none
  softDelete : Option (Option String) := none
  dependencies : Option (List DependencyEntry) := none

/-- How a kind's entry is read. -/
def HandlerDraft.shape : RecordShape HandlerDraft :=
  { name := "HandlerEntry"
    blank := {}
    fields := [
      fieldOf "kind" (·.kind) (fun d v => { d with kind := some v })
        (fun _ => readText) false false,
      fieldOf "fields" (·.fields) (fun d v => { d with fields := some v })
        readTexts true true,
      fieldOf "optionalFields" (·.optionalFields) (fun d v => { d with optionalFields := some v })
        readTexts true true,
      fieldOf "softDeleteField" (·.softDelete) (fun d v => { d with softDelete := some v })
        (fun _ => Json.nullable readText) true true,
      fieldOf "dependencies" (·.dependencies) (fun d v => { d with dependencies := some v })
        (fun depth => Json.list depth readDependency) true true] }

/-- The entry, once no field is missing. -/
def HandlerDraft.entry? (d : HandlerDraft) : Option HandlerEntry := do
  return { kind := ← d.kind, fields := d.fields.getD [], optionalFields := d.optionalFields.getD []
           softDelete := d.softDelete.getD none, dependencies := d.dependencies.getD [] }

/-- Reads a kind's entry. -/
def readHandler : (depth : Nat) → Reader HandlerEntry :=
  readRecord HandlerDraft.shape HandlerDraft.entry?

/-- The waiting times read so far. -/
structure WaitDraft where
  organic : Option (Option Nat) := none
  forceSync : Option (Option Nat) := none
  initialBackoff : Option (Option Nat) := none
  maxBackoff : Option (Option Nat) := none

/-- How the waiting times are read. An object may leave any of them out, an array none. -/
def WaitDraft.shape : RecordShape WaitDraft :=
  let millis : (depth : Nat) → Reader (Option Nat) := fun _ => readCount .unsigned64
  { name := "WaitEntry"
    blank := {}
    fields := [
      fieldOf "organicMaxWaitMs" (·.organic) (fun d v => { d with organic := some v })
        millis true false,
      fieldOf "forceSyncMaxWaitMs" (·.forceSync) (fun d v => { d with forceSync := some v })
        millis true false,
      fieldOf "initialBackoffMs" (·.initialBackoff) (fun d v => { d with initialBackoff := some v })
        millis true false,
      fieldOf "maxBackoffMs" (·.maxBackoff) (fun d v => { d with maxBackoff := some v })
        millis true false] }

/-- The waiting times. -/
def WaitDraft.entry (d : WaitDraft) : WaitEntry :=
  { organic := d.organic.getD none, forceSync := d.forceSync.getD none
    initialBackoff := d.initialBackoff.getD none, maxBackoff := d.maxBackoff.getD none }

/-- Reads the waiting times. -/
def readWait : (depth : Nat) → Reader WaitEntry := readRecord WaitDraft.shape (some ·.entry)

/-- The parts of a description read so far. -/
structure ConfigDraft where
  handlers : Option (List HandlerEntry) := none
  wait : Option WaitEntry := none
  maxConcurrency : Option (Option Nat) := none

/-- How a description is read. -/
def ConfigDraft.shape : RecordShape ConfigDraft :=
  { name := "SubscriberConfig"
    blank := {}
    fields := [
      fieldOf "handlers" (·.handlers) (fun d v => { d with handlers := some v })
        (fun depth => Json.list depth readHandler) false false,
      fieldOf "wait" (·.wait) (fun d v => { d with wait := some v })
        readWait true true,
      fieldOf "maxConcurrency" (·.maxConcurrency) (fun d v => { d with maxConcurrency := some v })
        (fun _ => readCount .size64) true true] }

/-- The description, once no part is missing. -/
def ConfigDraft.config? (d : ConfigDraft) : Option Config := do
  return { handlers := ← d.handlers, wait := d.wait.getD {}
           maxConcurrency := d.maxConcurrency.getD none }

/-- How many containers may be open at once. -/
def configDepth : Nat := 127

/-- Reads a description. -/
def readConfig : Reader Config := readRecord ConfigDraft.shape ConfigDraft.config? configDepth

/-- Reads a description from JSON text and checks it. -/
def Config.ofJson (text : String) : Except ConfigError Config :=
  match Json.finish readConfig text.toList with
  | .error fault => .error (.parse fault)
  | .ok config => config.check.map fun _ => config

end Replica.Subscriber

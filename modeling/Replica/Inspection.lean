import Replica.Json.Printer
import Replica.Handler
import Replica.MessageFile
/-! Checking a file of messages without applying any: whether each can be read, and whether it has the
shape and the references that its handler asks for. -/
namespace Replica

/-- What was found in one line. -/
structure LineReport where
  /-- The number of the line. -/
  line : Nat
  /-- The entity, if the message could be read. -/
  entity : Option EntityKey
  /-- What happened to the entity. -/
  action : Option Action
  /-- What is wrong. -/
  problems : List String
  deriving DecidableEq

/-- What was found in a file. -/
structure Inspection where
  /-- The path of the file. -/
  path : String
  /-- How many messages were asked for. -/
  forceSync : Nat
  /-- What was found in each line that holds a message. -/
  lines : List LineReport
  deriving DecidableEq

namespace Inspection

/-- Checks a message against its handler, if it has one. Of a deletion neither fields nor references
are asked for. -/
def checkMessage (registry : Registry) (m : Message) : Validation :=
  match SortedMap.get? registry m.entityKind with
  | none => .valid
  | some handler =>
    if m.action.isDeletion then handler.schema.check m.snapshot false
    else
      (handler.schema.check m.snapshot true).both
        (Validation.all (handler.requirements.map fun r =>
          match r.reference m.snapshot with
          | .ok _ => .valid
          | .error reason => .invalid [reason]))

/-- What is found in a line. Without handlers only the reading is checked. -/
def report (registry : Option Registry) (line : MessageLine) : LineReport :=
  match line.message with
  | .ok m =>
    let problems := (registry.elim .valid fun registry => checkMessage registry m).reasons
    ⟨line.number, some m.key, some m.action, problems⟩
  | .error error =>
    let problems := if error.reasons.isEmpty then [error.text] else error.reasons
    ⟨line.number, none, none, problems⟩

/-- Checks the lines of a file. -/
def ofLines (path : String) (registry : Option Registry) (lines : List MessageLine) : Inspection :=
  { path
    forceSync := (MessageFile.messages lines).countP (·.isForceSync)
    lines := lines.map (report registry) }

/-- The number of messages. -/
def messages (i : Inspection) : Nat := i.lines.length

/-- The lines with problems. -/
def badLines (i : Inspection) : List LineReport := i.lines.filter fun r => !r.problems.isEmpty

/-- The number of messages with problems. -/
def invalid (i : Inspection) : Nat := i.badLines.length

/-! ### Output -/

/-- A line as an object. -/
def lineJson (r : LineReport) : Json :=
  .obj ([("line", Json.ofNat r.line)] ++
    (r.entity.map fun key => ("entity", Json.str key.text)).toList ++
    (r.action.map fun action => ("action", Json.str action.text)).toList ++
    [("problems", .arr (r.problems.map .str))])

/-- The findings as an object. -/
def json (i : Inspection) : Json :=
  .obj [
    ("path", .str i.path),
    ("messages", Json.ofNat i.messages),
    ("invalid", Json.ofNat i.invalid),
    ("forceSync", Json.ofNat i.forceSync),
    ("lines", .arr (i.lines.map lineJson))]

/-- The lines of text about a bad line. -/
def lineText (r : LineReport) : List String :=
  ("  line " ++ toString r.line ++ " (" ++ (r.entity.map (·.text)).getD "?" ++ "):") ::
    r.problems.map ("    - " ++ ·)

/-- The findings as lines of text. -/
def text (i : Inspection) : List String :=
  [ "File: " ++ i.path,
    "Messages:   " ++ toString i.messages,
    "Force-sync: " ++ toString i.forceSync,
    "Invalid:    " ++ toString i.invalid ] ++ i.badLines.flatMap lineText

end Inspection

end Replica

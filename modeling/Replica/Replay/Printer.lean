import Replica.Message.Json
import Replica.Replay.Basic
/-! The report about a file that was applied, as JSON and as lines of text. -/
namespace Replica

/-- The counters as an object. Deletions of entities never seen are not told. -/
def ReplayReport.statsJson (r : ReplayReport) : Json :=
  let counts := ("lines", r.lines) :: ("undecodable", r.undecodable) ::
    r.stats.counts.filter (·.1 != "noop")
  .obj (counts.map fun count => (count.1, Json.ofNat count.2))

namespace Replay

/-- A record as an object. -/
def recordJson (r : Record) : Json :=
  .obj [
    ("entityKind", .str r.key.kind),
    ("sourceEntityId", .str r.key.id),
    ("lastSyncedAt", r.lastSyncedAt.json),
    ("isDeleted", .bool r.isDeleted),
    ("fields", Snapshot.json r.fields)]

/-- A message set aside as an object. -/
def letterJson (l : DeadLetter) : Json :=
  .obj [
    ("entityKind", .str l.message.entityKind),
    ("entityId", .str l.message.entityId),
    ("emittedAt", l.message.emittedAt.json),
    ("reason", .str l.reason.text),
    ("error", .str l.error)]

/-- A record as a line of text. -/
def recordText (r : Record) : String :=
  "  " ++ r.key.text ++ " @ " ++ r.lastSyncedAt.text ++ (if r.isDeleted then " [deleted]" else "") ++
    "  " ++ (Snapshot.json r.fields).compact

/-- A message set aside as a line of text. -/
def letterText (l : DeadLetter) : String :=
  "  " ++ l.message.key.text ++ " @ " ++ l.message.emittedAt.text ++ "  " ++ l.reason.text ++ ": " ++
    l.error

/-- The messages set aside as lines of text, none if there are none. -/
def lettersText (letters : List DeadLetter) : List String :=
  if letters.isEmpty then []
  else
    ["", "Dead letters (" ++ toString letters.length ++ ")"] ++ letters.map letterText

end Replay

namespace ReplayReport

/-- The report as an object. -/
def json (r : ReplayReport) : Json :=
  .obj [
    ("records", .arr (r.records.map Replay.recordJson)),
    ("deadLetters", .arr (r.letters.map Replay.letterJson)),
    ("stats", r.statsJson)]

/-- The report as lines of text. -/
def text (r : ReplayReport) : List String :=
  ["Mirror (" ++ toString r.records.length ++ " records)"] ++ r.records.map Replay.recordText ++
    Replay.lettersText r.letters ++
    [ "",
      "Lines:        " ++ toString r.lines,
      "Undecodable:  " ++ toString r.undecodable,
      "Applied:      " ++ toString r.stats.applied,
      "Stale:        " ++ toString r.stats.stale,
      "Filtered:     " ++ toString r.stats.filtered,
      "Dropped:      " ++ toString r.stats.dropped,
      "Escalated:    " ++ toString r.stats.escalated,
      "Dead-letters: " ++ toString r.stats.deadLettered ]

end ReplayReport

end Replica

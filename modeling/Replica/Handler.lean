import Replica.Schema
/-! How a subscriber treats the messages of each kind. -/
namespace Replica

/-- How the messages of one kind are treated. -/
structure Handler where
  /-- What is kept. -/
  schema : Schema
  /-- The entities that have to be there first. -/
  requirements : List Requirement
  /-- Which messages matter at all. -/
  accepts : Message → Bool

/-- The handlers by kind. -/
abbrev Registry := SortedMap String Handler

namespace Registry

/-- Adds a handler, in place of any other for its kind. -/
def register (registry : Registry) (handler : Handler) : Registry :=
  SortedMap.insert registry handler.schema.kind handler

/-- The handler that a message goes to: the one of its kind, if it accepts the message. -/
def handlerFor? (registry : Registry) (m : Message) : Option Handler :=
  (SortedMap.get? registry m.entityKind).filter (·.accepts m)

/-- Registers handlers one after another. -/
def ofList (handlers : List Handler) : Registry := handlers.foldl register ∅

end Registry

end Replica

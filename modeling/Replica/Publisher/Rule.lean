import Replica.Message
/-! Events on owned entities, and the rules that say which of them are told to others and how much of
their state. -/
namespace Replica

/-- Something that happened to an owned entity. -/
structure Event where
  /-- The kind of the entity. -/
  kind : String
  /-- The id of the entity. -/
  id : String
  /-- What happened. -/
  action : Action
  /-- The fields after it happened. -/
  state : Snapshot
  /-- The entity is test or seed data. -/
  isTestData : Bool := false
  deriving DecidableEq

/-- Which events of one kind are told, and with which fields. -/
structure PublishRule where
  /-- The kind. -/
  kind : String
  /-- The fields that are told; without a list, all. -/
  fields : Option (List String) := none
  /-- The texts that a field may have for the event to be told, by field. -/
  states : SortedMap String (List String) := ∅
  deriving DecidableEq

namespace PublishRule

/-- Allows more texts for a field. -/
def allow (rule : PublishRule) (field : String) (texts : List String) : PublishRule :=
  { rule with
    states := SortedMap.insert rule.states field (((rule.states.get? field).getD []) ++ texts) }

/-- The text of a state: truth values and numbers have one, containers and null have none. -/
def stateText? (value : Value) : Option String :=
  match value.json with
  | .str s => some s
  | .bool b => some (toString b)
  | .num n => some n.text
  | _ => none

/-- Whether every field that has to be in some state is in one of those allowed. -/
def holds (rule : PublishRule) (state : Snapshot) : Bool :=
  rule.states.entries.all fun condition =>
    ((state.get? condition.1).bind stateText?).any condition.2.contains

/-- The fields that are told of a state. -/
def outbound (rule : PublishRule) (state : Snapshot) : Snapshot :=
  match rule.fields with
  | none => state
  | some names => Snapshot.project state names

end PublishRule

end Replica

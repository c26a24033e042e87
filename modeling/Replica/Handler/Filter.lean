import Replica.Handler
/-! Conditions on single messages that a handler can be given as data. -/
namespace Replica

/-- A condition on a message. -/
inductive MessageFilter where
  /-- A field holds this text; without a text, the field is absent or holds none. -/
  | fieldIs (field : String) (text : Option String)
  /-- A field does not hold this text. -/
  | fieldIsNot (field : String) (text : Option String)
  /-- A field is there and not null. -/
  | hasField (field : String)
  /-- This is what happened. -/
  | actionIs (action : Action)
  /-- The message was asked for. -/
  | forceSync
  /-- No message meets this. -/
  | never
  deriving DecidableEq, Repr

/-- Whether a message meets the condition. -/
def MessageFilter.accepts (m : Message) : MessageFilter → Bool
  | fieldIs field text => Snapshot.str? m.snapshot field == text
  | fieldIsNot field text => Snapshot.str? m.snapshot field != text
  | hasField field => Snapshot.has m.snapshot field
  | actionIs action => m.action == action
  | forceSync => m.isForceSync
  | never => false

/-- A handler for the messages that meet a condition, if one is given. -/
def Handler.ofFilter (schema : Schema) (requirements : List Requirement)
    (condition : Option MessageFilter) : Handler :=
  { schema, requirements, accepts := fun m => condition.all (MessageFilter.accepts m) }

end Replica

import Replica.Backoff
import Replica.Handler
import Replica.Json.Fault
/-! The description of a subscriber: which kinds it keeps, with which fields, which entities have to be
there first, and how long messages wait for them. -/
namespace Replica.Subscriber

/-- A reference to other entities. -/
structure DependencyEntry where
  /-- The field with the id. -/
  field : String
  /-- The kind of the entity referred to. -/
  kind : String
  /-- The reference may be absent. -/
  isOptional : Bool := false
  deriving DecidableEq

/-- What is kept of one kind. -/
structure HandlerEntry where
  /-- The kind. -/
  kind : String
  /-- The fields that have to be there. -/
  fields : List String := []
  /-- The fields that are kept if they are there. -/
  optionalFields : List String := []
  /-- The field that marks an entity as deleted. -/
  softDelete : Option String := none
  /-- The references. -/
  dependencies : List DependencyEntry := []
  deriving DecidableEq

/-- How long messages wait, in milliseconds; what is not given has its standard value. -/
structure WaitEntry where
  /-- For messages caused by a change. -/
  organic : Option Nat := none
  /-- For messages that were asked for. -/
  forceSync : Option Nat := none
  /-- The first delay between two looks. -/
  initialBackoff : Option Nat := none
  /-- The greatest delay between two looks. -/
  maxBackoff : Option Nat := none
  deriving DecidableEq

/-- The description of a subscriber. -/
structure Config where
  /-- The kinds it keeps. -/
  handlers : List HandlerEntry
  /-- How long messages wait. -/
  wait : WaitEntry := {}
  /-- How many messages it handles at once. -/
  maxConcurrency : Option Nat := none
  deriving DecidableEq

/-- Why a description is refused. -/
inductive ConfigError where
  /-- The text is not a description. -/
  | parse (fault : Json.Fault)
  /-- A kind has no name. -/
  | emptyKind
  /-- A kind is described twice. -/
  | repeatedKind (kind : String)
  deriving DecidableEq

namespace ConfigError

/-- What exactly is wrong. -/
def detail : ConfigError → String
  | parse fault => fault.message
  | emptyKind => "handler kind is empty"
  | repeatedKind kind => "kind `" ++ kind ++ "` is configured twice"

/-- The message. -/
def message (error : ConfigError) : String := "invalid subscriber config: " ++ error.detail

end ConfigError

namespace HandlerEntry

/-- The shape of the records: the fields that have to be there come first. -/
def schema (entry : HandlerEntry) : Schema :=
  { kind := entry.kind
    fields := entry.fields.map (⟨·, true⟩) ++ entry.optionalFields.map (⟨·, false⟩)
    softDelete := entry.softDelete }

/-- The handler, which accepts every message of its kind. -/
def handler (entry : HandlerEntry) : Handler :=
  { schema := entry.schema
    requirements := entry.dependencies.map fun d => ⟨d.field, d.kind, d.isOptional⟩
    accepts := fun _ => true }

end HandlerEntry

namespace Config

/-- Checks the entries after those of some kinds: every kind has a name, and none comes twice. -/
def checkEntries (seen : List String) : List HandlerEntry → Except ConfigError Unit
  | [] => .ok ()
  | entry :: entries =>
    if entry.kind.isEmpty then .error .emptyKind
    else if seen.contains entry.kind then .error (.repeatedKind entry.kind)
    else checkEntries (entry.kind :: seen) entries

/-- Checks the kinds of a description; the first bad entry is reported. -/
def check (config : Config) : Except ConfigError Unit := checkEntries [] config.handlers

/-- The handlers. -/
def registry (config : Config) : Registry :=
  Registry.ofList (config.handlers.map HandlerEntry.handler)

/-- The delays between two looks. -/
def backoff (config : Config) : Backoff :=
  { Backoff.standard with
    initial := (config.wait.initialBackoff.map Duration.millis).getD Backoff.standard.initial
    max := (config.wait.maxBackoff.map Duration.millis).getD Backoff.standard.max }

/-- How long messages wait. -/
def budget (config : Config) : WaitBudget :=
  let standard : WaitBudget := {}
  { organic := (config.wait.organic.map Duration.millis).getD standard.organic
    forceSync := (config.wait.forceSync.map Duration.millis).getD standard.forceSync
    backoff := config.backoff }

/-- How many messages are handled at once: at least one, and 64 if nothing is said. -/
def concurrency (config : Config) : Nat := (config.maxConcurrency.map (max 1)).getD 64

end Config

end Replica.Subscriber

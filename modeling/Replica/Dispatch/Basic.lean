import Replica.Dispatch.Outcome
import Replica.Handler
import Replica.Store.Backend
import Replica.Wait
/-! The dispatch of one message in atomic steps. A message that nobody handles is filtered. One that
refers to other entities waits until all are there, unless it deletes its entity. Then the record of
its entity is loaded, the message is merged into it, and the result is written if it is still newer
than what is there. Between any two steps other dispatches may make theirs. -/
namespace Replica

/-- Who dispatches messages, and how. -/
structure Consumer (σ : Type) where
  /-- The handlers. -/
  registry : Registry
  /-- How long messages wait. -/
  budget : WaitBudget := {}
  /-- How many messages are dispatched at once; none counts as one. -/
  maxConcurrency : Nat := 64
  /-- Messages set aside are kept, not only logged. -/
  keepsLetters : Bool := true
  /-- The store, and how entities are looked for. -/
  backend : Backend σ

/-- What dispatches share. -/
structure Desk (σ : Type) where
  /-- The state of the store. -/
  store : σ
  /-- The messages set aside, in order. -/
  letters : List DeadLetter := []
  /-- The counters. -/
  stats : Stats := {}

/-- Sets a message aside. -/
def Desk.shelve {σ : Type} (desk : Desk σ) (letter : DeadLetter) : Desk σ :=
  { desk with letters := desk.letters ++ [letter] }

/-- A wait for the entities that a message refers to, one after another under one deadline. -/
structure DependencyWait where
  /-- The shape of the record to be written. -/
  schema : Schema
  /-- When the wait for the first entity began. -/
  since : Instant
  /-- When all entities have to be there. -/
  deadline : Instant
  /-- The wait for this entity. -/
  wait : Wait
  /-- The entity waited for. -/
  key : EntityKey
  /-- The entities to wait for later. -/
  later : List EntityKey
  deriving DecidableEq

/-- How far a dispatch is. -/
inductive Dispatch.Phase where
  /-- Just received. -/
  | arrived
  /-- About to look for an entity. -/
  | probing (wait : DependencyWait)
  /-- Pausing before the next look. -/
  | pausing (until_ : Instant) (wait : DependencyWait)
  /-- About to load the record. -/
  | loading (schema : Schema)
  /-- About to write a record, and the outcome if it is written. -/
  | writing (record : Record) (outcome : Outcome)
  /-- About to be counted. -/
  | closing (ending : Ending)
  /-- About to be set aside. -/
  | shelving (letter : DeadLetter) (result : DispatchResult)
  /-- Finished. -/
  | done (result : DispatchResult)
  /-- The budget reaches beyond the end of the clock. -/
  | beyondClock

/-- The dispatch of a message. -/
structure Dispatch where
  /-- The message. -/
  message : Message
  /-- How far it is. -/
  phase : Dispatch.Phase := .arrived

namespace Dispatch

/-- What a message has to wait for. Deletions wait for nothing, since what they refer to may itself
be gone; and a message whose snapshot cannot be applied anyway is refused at once. -/
def dependencies (handler : Handler) (m : Message) : Except SyncError (Option (List EntityKey)) :=
  if m.action.isDeletion || handler.schema.isSoftDeleted m.snapshot ||
      handler.requirements.isEmpty then
    .ok none
  else
    match handler.schema.check m.snapshot true with
    | .invalid reasons => .error (.malformedSnapshot m.key reasons)
    | .valid =>
      match Requirement.references handler.requirements m.snapshot with
      | .error reasons => .error (.malformedSnapshot m.key reasons)
      | .ok keys => .ok (some keys)

/-- Goes on to the next entity to wait for, or to the record once all are there. -/
def await (schema : Schema) (since deadline now : Instant) : List EntityKey → Phase
  | [] => .loading schema
  | key :: later =>
    let wait : Wait := { start := now, deadline := now + (deadline - now) }
    .probing { schema, since, deadline, wait, key, later }

/-- Receives the message. -/
def receive (registry : Registry) (budget : WaitBudget) (now : Instant) (m : Message) : Phase :=
  match registry.handlerFor? m with
  | none => .closing (.plain .filtered)
  | some handler =>
    match dependencies handler m with
    | .error error => .closing (.failed error)
    | .ok none => .loading handler.schema
    | .ok (some keys) =>
      match Instant.after? now (budget.budgetFor m.isForceSync) with
      | none => .beyondClock
      | some deadline => await handler.schema now deadline now keys

/-- Goes on after a look for an entity. -/
def onProbe (backoff : Backoff) (now : Instant) (w : DependencyWait) :
    Except SyncError Bool → Phase
  | .error error => .closing (.failed error)
  | .ok true => await w.schema w.since w.deadline now w.later
  | .ok false =>
    match w.wait.pause? backoff now with
    | none => .closing (.timedOut w.key (now - w.since))
    | some (until_, wait) => .pausing until_ { w with wait }

/-- Goes on after the record is loaded. -/
def onLoad (schema : Schema) (m : Message) : Except SyncError (Option Record) → Phase
  | .error error => .closing (.failed error)
  | .ok current =>
    match Resolution.resolve m current schema with
    | .error error => .closing (.failed error)
    | .ok (.stale _) => .closing (.plain .stale)
    | .ok (.tombstone record) => .writing record .noop
    | .ok (.write record change) => .writing record (.applied change)

/-- Goes on after the write. A newer message may have come in between. -/
def onWrite (outcome : Outcome) : Except SyncError Upsert → Phase
  | .error error => .closing (.failed error)
  | .ok (.stale _) => .closing (.plain .stale)
  | .ok _ => .closing (.plain outcome)

variable {σ : Type}

/-- One atomic step. -/
def step (c : Consumer σ) (now : Instant) (desk : Desk σ) (d : Dispatch) : Desk σ × Dispatch :=
  let goOn (phase : Phase) : Dispatch := { d with phase }
  match d.phase with
  | .arrived =>
    ({ desk with stats := { desk.stats with received := desk.stats.received + 1 } },
      goOn (receive c.registry c.budget now d.message))
  | .probing w =>
    let (answer, store) := c.backend.probe w.key desk.store
    ({ desk with store }, goOn (onProbe c.budget.backoff now w answer))
  | .pausing _ w => (desk, goOn (.probing w))
  | .loading schema =>
    let (answer, store) := c.backend.load d.message.key desk.store
    ({ desk with store }, goOn (onLoad schema d.message answer))
  | .writing record outcome =>
    let (answer, store) := c.backend.upsert record desk.store
    ({ desk with store }, goOn (onWrite outcome answer))
  | .closing ending =>
    let result := ending.result d.message
    ({ desk with stats := ending.count d.message desk.stats },
      match ending.letter? d.message with
      | none => goOn (.done result)
      | some letter => goOn (.shelving letter result))
  | .shelving letter result =>
    (if c.keepsLetters then desk.shelve letter else desk, goOn (.done result))
  | .done _ => (desk, d)
  | .beyondClock => (desk, d)

/-- Whether the dispatch can make a step. -/
def ready (now : Instant) (d : Dispatch) : Bool :=
  match d.phase with
  | .pausing until_ _ => until_ ≤ now
  | .done _ => false
  | .beyondClock => false
  | _ => true

/-- When the clock lets a paused dispatch go on. -/
def wakeAt (d : Dispatch) : Option Instant :=
  match d.phase with
  | .pausing until_ _ => some until_
  | _ => none

/-- What the dispatch gave, once it is finished. -/
def result? (d : Dispatch) : Option DispatchResult :=
  match d.phase with
  | .done result => some result
  | _ => none

end Dispatch

end Replica

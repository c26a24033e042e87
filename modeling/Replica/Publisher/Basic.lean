import Replica.Error
import Replica.Publisher.Rule
/-! Telling others about events. A rule decides whether an event becomes a message; every message gets
a stamp of its own, greater than all before; and every event is counted once, by what became of it. -/
namespace Replica

/-- Where messages go: what becomes of the state of the transport, and whether it took the message. -/
abbrev Sink (σ : Type) := Message → σ → Except SyncError Unit × σ

/-- Why no message is made of an event. -/
inductive Skip where
  /-- The event is test data, or its rule does not hold. -/
  | filtered
  /-- There is no rule for its kind. -/
  | noRule
  deriving DecidableEq, Repr

/-- What became of an event. -/
inductive PublishOutcome where
  /-- The transport took the message. -/
  | published (m : Message)
  /-- No message was made. -/
  | skipped (why : Skip)
  /-- The transport refused the message, with these words. -/
  | sendFailed (error : String)
  deriving DecidableEq

/-- The name of an outcome. -/
def PublishOutcome.text : PublishOutcome → String
  | published _ => "Published"
  | skipped .filtered => "Filtered"
  | skipped .noRule => "NoRule"
  | sendFailed _ => "SendFailed"

/-- Whether a message was handed over. -/
def PublishOutcome.isPublished : PublishOutcome → Bool
  | published _ => true
  | _ => false

/-- How many events came to which end. -/
structure PublishStats where
  /-- Taken by the transport. -/
  published : Nat := 0
  /-- Test data, or against the rule. -/
  filtered : Nat := 0
  /-- Without a rule. -/
  unrouted : Nat := 0
  /-- Refused by the transport. -/
  sendFailures : Nat := 0
  deriving DecidableEq, Repr

namespace PublishStats

/-- The counters in order. -/
def counts (s : PublishStats) : List Nat := [s.published, s.filtered, s.unrouted, s.sendFailures]

/-- Counts an event that became no message. -/
def countSkip (stats : PublishStats) : Skip → PublishStats
  | .filtered => { stats with filtered := stats.filtered + 1 }
  | .noRule => { stats with unrouted := stats.unrouted + 1 }

/-- Counts a message that was sent. -/
def countSend (stats : PublishStats) : Except SyncError Unit → PublishStats
  | .ok _ => { stats with published := stats.published + 1 }
  | .error _ => { stats with sendFailures := stats.sendFailures + 1 }

end PublishStats

/-- What makes messages of events. -/
structure Publisher where
  /-- The rules by kind. -/
  rules : SortedMap String PublishRule := ∅
  /-- Test data are left out. -/
  skipTestData : Bool := true
  /-- The clock of the stamps. -/
  clock : StampClock := {}
  /-- The counters. -/
  stats : PublishStats := {}
  /-- Messages to be sent in the background, the next first. -/
  pending : List Message := []
  deriving DecidableEq

namespace Publisher

/-- Adds a rule, in place of any other for its kind. -/
def register (p : Publisher) (rule : PublishRule) : Publisher :=
  { p with rules := SortedMap.insert p.rules rule.kind rule }

/-- The rule under which an event is told, if it is. Deletions are told whatever their state. -/
def ruleFor (p : Publisher) (event : Event) : Except Skip PublishRule :=
  if p.skipTestData && event.isTestData then .error .filtered
  else
    match p.rules.get? event.kind with
    | none => .error .noRule
    | some rule =>
      if event.action.isDeletion || rule.holds event.state then .ok rule else .error .filtered

/-- The message about an event under a rule. -/
def messageOf (rule : PublishRule) (event : Event) (stamp : Stamp) : Message :=
  { entityId := event.id, entityKind := event.kind, action := event.action
    snapshot := rule.outbound event.state, emittedAt := stamp, isForceSync := false }

/-- Makes the message about an event at a reading of the wall clock. Only a message uses up a
stamp, and nothing is counted yet. -/
def build (p : Publisher) (wall : Stamp) (event : Event) : Except Skip Message × Publisher :=
  match p.ruleFor event with
  | .error why => (.error why, p)
  | .ok rule =>
    let (stamp, clock) := p.clock.issue wall
    (.ok (messageOf rule event stamp), { p with clock })

variable {σ : Type}

/-- Counts an event that became no message. -/
def skip (p : Publisher) (why : Skip) : Publisher := { p with stats := p.stats.countSkip why }

/-- Sends a message. -/
def send (sink : Sink σ) (m : Message) (p : Publisher) (s : σ) :
    PublishOutcome × Publisher × σ :=
  let (answer, s) := sink m s
  let outcome : PublishOutcome :=
    match answer with
    | .ok _ => .published m
    | .error error => .sendFailed error.text
  (outcome, { p with stats := p.stats.countSend answer }, s)

/-- Makes a message of an event and sends it after a last change. -/
def publishWith (adjust : Message → Message) (sink : Sink σ) (wall : Stamp) (event : Event)
    (p : Publisher) (s : σ) : PublishOutcome × Publisher × σ :=
  match p.build wall event with
  | (.error why, p) => (.skipped why, p.skip why, s)
  | (.ok m, p) => p.send sink (adjust m) s

/-- Tells others about an event. -/
def publish (sink : Sink σ) (wall : Stamp) (event : Event) (p : Publisher) (s : σ) :
    PublishOutcome × Publisher × σ :=
  p.publishWith id sink wall event s

/-- Makes a message of an event now, to be sent in the background. -/
def publishLater (wall : Stamp) (event : Event) (p : Publisher) : Option Message × Publisher :=
  match p.build wall event with
  | (.error why, p) => (none, p.skip why)
  | (.ok m, p) => (some m, { p with pending := p.pending ++ [m] })

/-- Sends the next message that waits in the background, if there is one. -/
def sendPending (sink : Sink σ) (p : Publisher) (s : σ) : Publisher × σ :=
  match p.pending with
  | [] => (p, s)
  | m :: pending =>
    let (_, p, s) := { p with pending }.send sink m s
    (p, s)

/-- Tells the state of entities again, as messages that were asked for, each at its own reading of
the wall clock. -/
def resync (sink : Sink σ) : List (Stamp × Event) → Publisher → σ →
    List PublishOutcome × Publisher × σ
  | [], p, s => ([], p, s)
  | (wall, event) :: events, p, s =>
    let (outcome, p, s) :=
      p.publishWith (fun m => { m with isForceSync := true }) sink wall event s
    let (outcomes, p, s) := resync sink events p s
    (outcome :: outcomes, p, s)

end Publisher

/-- An outbox that keeps the messages it takes, and can be told to refuse. -/
structure Outbox where
  /-- The messages taken, in order. -/
  sent : List Message := []
  /-- The error with which messages are refused, if they are. -/
  refusal : Option SyncError := none
  deriving DecidableEq

/-- Takes or refuses a message. -/
def Outbox.sink : Sink Outbox := fun m outbox =>
  match outbox.refusal with
  | none => (.ok (), { outbox with sent := outbox.sent ++ [m] })
  | some error => (.error error, outbox)

end Replica

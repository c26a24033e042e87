import Replica.Resolution
/-! How the dispatch of a message can end, what is counted, and what is set aside for an operator. -/
namespace Replica

/-- Why a message was set aside. -/
inductive LetterReason where
  /-- The snapshot does not have the shape of the schema. -/
  | malformedSnapshot
  /-- A message that was asked for gave up waiting. -/
  | dependencyTimeout
  /-- Any other failure that no repetition mends. -/
  | permanentFailure
  /-- All delivery attempts were used up. -/
  | retriesExhausted
  deriving DecidableEq, Repr

/-- The name of a reason. -/
def LetterReason.text : LetterReason → String
  | malformedSnapshot => "malformed-snapshot"
  | dependencyTimeout => "dependency-timeout"
  | permanentFailure => "permanent-failure"
  | retriesExhausted => "retries-exhausted"

/-- A message set aside, unchanged. -/
structure DeadLetter where
  /-- The message. -/
  message : Message
  /-- Why it was set aside. -/
  reason : LetterReason
  /-- The words for it. -/
  error : String
  deriving DecidableEq

/-- How a dispatch ended. Each of these is acknowledged. -/
inductive Outcome where
  /-- Nobody here handles the message. -/
  | filtered
  /-- The store changed. -/
  | applied (change : Change)
  /-- The store has this or a newer version. -/
  | stale
  /-- A deletion of an entity never seen. -/
  | noop
  /-- A message caused by a change gave up waiting for this entity. -/
  | dropped (missing : EntityKey)
  /-- A message that was asked for gave up waiting for this entity. -/
  | escalated (missing : EntityKey)
  /-- The message was set aside. -/
  | deadLettered (reason : LetterReason)
  deriving DecidableEq

/-- What dispatching a message gives: an outcome, or an error after which it is delivered again. -/
abbrev DispatchResult := Except SyncError Outcome

/-- Where a message stands. -/
inductive MessageState where
  | filtered
  | applied
  | dependenciesTimedOut
  | failed
  deriving DecidableEq, Repr

/-- The name of a state. -/
def MessageState.text : MessageState → String
  | filtered => "Filtered"
  | applied => "Applied"
  | dependenciesTimedOut => "DependenciesTimedOut"
  | failed => "Failed"

namespace Outcome

/-- The name of an outcome. -/
def text : Outcome → String
  | filtered => "Filtered"
  | applied _ => "Applied"
  | stale => "Stale"
  | noop => "NoOp"
  | dropped _ => "Dropped"
  | escalated _ => "Escalated"
  | deadLettered _ => "DeadLettered"

/-- Where the message stands at the end. -/
def state : Outcome → MessageState
  | filtered => .filtered
  | applied _ => .applied
  | stale => .applied
  | noop => .applied
  | dropped _ => .dependenciesTimedOut
  | escalated _ => .dependenciesTimedOut
  | deadLettered _ => .failed

/-- Whether the store changed visibly. -/
def isApplied : Outcome → Bool
  | applied _ => true
  | _ => false

end Outcome

/-- What is counted over all dispatches. -/
structure Stats where
  received : Nat := 0
  filtered : Nat := 0
  applied : Nat := 0
  stale : Nat := 0
  noop : Nat := 0
  dropped : Nat := 0
  escalated : Nat := 0
  deadLettered : Nat := 0
  transientFailures : Nat := 0
  /-- The last error. -/
  lastError : Option String := none
  deriving DecidableEq, Repr

/-- The counters by name. -/
def Stats.counts (s : Stats) : List (String × Nat) :=
  [ ("received", s.received), ("filtered", s.filtered), ("applied", s.applied), ("stale", s.stale),
    ("noop", s.noop), ("dropped", s.dropped), ("escalated", s.escalated),
    ("deadLettered", s.deadLettered), ("transientFailures", s.transientFailures) ]

/-- How a dispatch ends before it is counted. -/
inductive Ending where
  /-- Without trouble. -/
  | plain (outcome : Outcome)
  /-- An entity did not come in time. -/
  | timedOut (missing : EntityKey) (waited : Duration)
  /-- With an error. -/
  | failed (error : SyncError)
  deriving DecidableEq

namespace Ending

/-- Why a message is set aside for an error. -/
def reasonFor : SyncError → LetterReason
  | .malformedSnapshot .. => .malformedSnapshot
  | .protocol _ => .malformedSnapshot
  | .dependencyTimeout .. => .dependencyTimeout
  | _ => .permanentFailure

/-- The error of giving up. -/
def timeoutError (m : Message) (missing : EntityKey) (waited : Duration) : SyncError :=
  .dependencyTimeout m.key missing.text waited

/-- What the dispatch gives. -/
def result (m : Message) : Ending → DispatchResult
  | plain outcome => .ok outcome
  | timedOut missing _ => .ok (if m.isForceSync then .escalated missing else .dropped missing)
  | failed error => if error.isRetryable then .error error else .ok (.deadLettered (reasonFor error))

/-- What is set aside. -/
def letter? (m : Message) : Ending → Option DeadLetter
  | plain _ => none
  | timedOut missing waited =>
    if m.isForceSync then
      some ⟨m, .dependencyTimeout, (timeoutError m missing waited).text⟩
    else none
  | failed error => if error.isRetryable then none else some ⟨m, reasonFor error, error.text⟩

/-- What is counted. -/
def count (m : Message) (stats : Stats) : Ending → Stats
  | plain .filtered => { stats with filtered := stats.filtered + 1 }
  | plain (.applied _) => { stats with applied := stats.applied + 1 }
  | plain .stale => { stats with stale := stats.stale + 1 }
  | plain .noop => { stats with noop := stats.noop + 1 }
  | plain _ => stats
  | timedOut missing waited =>
    if m.isForceSync then
      { stats with
        escalated := stats.escalated + 1
        lastError := some (timeoutError m missing waited).text }
    else { stats with dropped := stats.dropped + 1 }
  | failed error =>
    if error.isRetryable then
      { stats with
        transientFailures := stats.transientFailures + 1
        lastError := some error.text }
    else
      { stats with deadLettered := stats.deadLettered + 1, lastError := some error.text }

end Ending

end Replica

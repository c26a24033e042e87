import Replica.Duration
import Replica.Message.Draft
/-! What can go wrong while messages are published or applied. -/
namespace Replica

/-- An error of publishing or applying messages. -/
inductive SyncError where
  /-- The snapshot does not have the shape that the schema asks for. -/
  | malformedSnapshot (key : EntityKey) (reasons : List String)
  /-- The store failed. -/
  | storage (text : String) (retryable : Bool)
  /-- A message that was asked for gave up waiting for another entity. -/
  | dependencyTimeout (key : EntityKey) (missing : String) (waited : Duration)
  /-- A message could not be written or read. -/
  | protocol (error : ProtocolError)
  /-- The transport failed. -/
  | transport (text : String) (retryable : Bool)
  /-- Nobody receives any more. -/
  | closed
  deriving DecidableEq

namespace SyncError

/-- The name of the kind of an error. -/
def kindText : SyncError → String
  | malformedSnapshot .. => "MalformedSnapshot"
  | storage .. => "Storage"
  | dependencyTimeout .. => "DependencyTimeout"
  | protocol _ => "Protocol"
  | transport .. => "Transport"
  | closed => "Closed"

/-- The message. -/
def text : SyncError → String
  | malformedSnapshot key reasons =>
    "malformed snapshot for " ++ key.text ++ ": " ++ "; ".intercalate reasons
  | storage text _ => "storage error: " ++ text
  | dependencyTimeout key missing waited =>
    "dependency " ++ missing ++ " for " ++ key.text ++ " did not arrive within " ++ waited.text
  | protocol error => "protocol error: " ++ error.text
  | transport text _ => "transport error: " ++ text
  | closed => "delivery channel closed"

/-- Whether another attempt may succeed. -/
def isRetryable : SyncError → Bool
  | storage _ retryable => retryable
  | transport _ retryable => retryable
  | _ => false

/-- Whether the message can never be applied as it is. -/
def isPermanent : SyncError → Bool
  | malformedSnapshot .. => true
  | protocol _ => true
  | _ => false

end SyncError

end Replica

import Replica.Message
/-! The line between bus and receiver: deliveries in order, a bounded number at a time. Who finds no
room waits, and places that become free are given out in the order of waiting. -/
namespace Replica

/-- What a receiver reports about a delivery. -/
inductive Verdict where
  /-- Done; not to be delivered again. -/
  | ack
  /-- Failed; to be delivered again. -/
  | nack
  /-- The delivery was dropped without a word. -/
  | lost
  deriving DecidableEq, Repr

/-- The name of a verdict: what was dropped counts as failed. -/
def Verdict.text : Verdict → String
  | ack => "Ack"
  | nack => "Nack"
  | lost => "Nack"

/-- The verdict on a dispatch: only errors are delivered again. -/
def Verdict.ofResult {ε α : Type} : Except ε α → Verdict
  | .ok _ => .ack
  | .error _ => .nack

/-- A message under way to the receiver. -/
structure Delivery where
  /-- The message. -/
  message : Message
  /-- Which attempt this is, counted from zero. -/
  attempt : Nat
  /-- Where the verdict goes, if anywhere. -/
  replyTo : Option Nat
  deriving DecidableEq

/-- The line. -/
structure Line where
  /-- How many deliveries there may be at a time. -/
  capacity : Nat
  /-- The deliveries, the next first. -/
  queue : List Delivery := []
  /-- Who waits for room, in order. -/
  senders : List Nat := []
  /-- Who was given room and has not used it. -/
  granted : List Nat := []
  /-- The receiver is gone. -/
  closed : Bool := false
  /-- Nobody sends any more. -/
  hungUp : Bool := false
  deriving DecidableEq

namespace Line

/-- A line for at least one delivery at a time. -/
def ofCapacity (n : Nat) : Line := { capacity := max n 1 }

/-- Whether there is room that nobody was given. -/
def hasRoom (line : Line) : Bool := line.queue.length + line.granted.length < line.capacity

/-- Puts a delivery last. -/
def push (line : Line) (d : Delivery) : Line := { line with queue := line.queue ++ [d] }

/-- Lets a sender wait for room. -/
def enlist (line : Line) (sender : Nat) : Line := { line with senders := line.senders ++ [sender] }

/-- Uses the room that a sender was given. -/
def occupy (line : Line) (sender : Nat) (d : Delivery) : Line :=
  { line with granted := line.granted.erase sender, queue := line.queue ++ [d] }

/-- Takes the next delivery; its place goes to the sender that waits longest. -/
def pop? (line : Line) : Option (Delivery × Line) :=
  match line.queue with
  | [] => none
  | d :: queue =>
    match line.senders with
    | [] => some (d, { line with queue })
    | sender :: senders => some (d, { line with queue, senders, granted := line.granted ++ [sender] })

/-- The receiver goes away: the deliveries on the line are dropped. -/
def close (line : Line) : List Delivery × Line :=
  (line.queue, { line with queue := [], closed := true })

end Line

end Replica

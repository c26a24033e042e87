import Replica.Bus.Line
import Replica.Dispatch.Basic
import Replica.Schedule
/-! A bus, a consumer and its store at work together. Every message sent has a courier, who brings it
to the line again and again until it is acknowledged or its attempts are used up. The receiver takes
deliveries from the line, each with a permit, and hands them to workers, who dispatch them and report
the verdict. -/
namespace Replica

/-- A verdict on its way back, and when it was given. -/
structure Reply where
  /-- Who waits for it. -/
  recipient : Nat
  /-- The verdict. -/
  verdict : Verdict
  /-- When it was given. -/
  at_ : Instant
  deriving DecidableEq

/-- A finished dispatch. -/
structure Finish where
  /-- Which dispatch. -/
  label : Nat
  /-- When it finished. -/
  at_ : Instant
  /-- What it gave. -/
  result : DispatchResult

/-- What couriers, receiver and workers share. -/
structure Exchange (σ : Type) where
  /-- The store, the letters and the counters. -/
  desk : Desk σ
  /-- The line to the receiver. -/
  line : Line := .ofCapacity 1
  /-- Verdicts that nobody has taken yet. -/
  replies : List Reply := []
  /-- Messages sent whose courier has not finished. -/
  outstanding : Nat := 0
  /-- How many more dispatches may run. -/
  permits : Nat := 0
  /-- The dispatches that were started by hand and have finished. -/
  finished : List Finish := []
  /-- When the receiver finished. -/
  receiverEnd : Option Instant := none
  /-- A dispatch reached beyond the end of the clock. -/
  beyondClock : Bool := false

/-- A message being brought to the line. -/
inductive Courier.Phase where
  /-- Before an attempt. -/
  | attempt (n : Nat)
  /-- Pausing before an attempt. -/
  | resting (until_ : Instant) (n : Nat)
  /-- At the line. -/
  | offering (n : Nat)
  /-- Waiting for room on the line. -/
  | queued (n : Nat)
  /-- Waiting for the verdict. -/
  | awaiting (n : Nat)
  /-- Out of attempts. -/
  | shelving
  /-- About to finish. -/
  | leaving
  deriving DecidableEq, Repr

/-- What becomes of a dispatch once it is finished. -/
inductive Worker.Phase where
  /-- The dispatch goes on. -/
  | dispatching
  /-- About to report the verdict. -/
  | settling (result : DispatchResult)
  /-- About to give the permit back. -/
  | releasing

/-- A dispatch on its own. -/
structure Worker where
  /-- The dispatch. -/
  dispatch : Dispatch
  /-- How far it is. -/
  phase : Worker.Phase := .dispatching
  /-- The dispatch was started by hand and has this label; otherwise by the receiver. -/
  label : Option Nat := none
  /-- Where the verdict goes. -/
  replyTo : Option Nat := none

/-- The one who takes deliveries from the line. -/
inductive Receiver where
  /-- Waiting for a delivery. -/
  | receiving
  /-- Waiting for a permit for a delivery. -/
  | holding (d : Delivery)
  /-- Waiting for all dispatches to finish. -/
  | draining
  deriving DecidableEq

/-- A task of the exchange. -/
inductive Job where
  /-- Brings a message to the line. -/
  | courier (message : Message) (phase : Courier.Phase)
  /-- Takes deliveries from the line. -/
  | receiver (r : Receiver)
  /-- Dispatches a message. -/
  | worker (w : Worker)
  /-- Does nothing until a moment. -/
  | timer (until_ : Instant)

/-- How an exchange works. -/
structure Exchange.Setup (σ : Type) where
  /-- The consumer. -/
  consumer : Consumer σ
  /-- How often deliveries are tried. -/
  retry : Retry := .standard

namespace Exchange

variable {σ : Type}

/-- The number of dispatches that may run at once. Numbers beyond 2^61 - 1 are left aside: there are never so many
permits, and with such a number the receiver does not start at all. -/
def Setup.limit (setup : Setup σ) : Nat := max setup.consumer.maxConcurrency 1

/-- The number of permits that have to be back before the receiver finishes. -/
def Setup.allPermits (setup : Setup σ) : Nat := min setup.limit 4294967295

/-- Reports a verdict, if anybody waits for it. -/
def reply (x : Exchange σ) (now : Instant) (recipient : Option Nat) (verdict : Verdict) : Exchange σ :=
  match recipient with
  | none => x
  | some recipient => { x with replies := x.replies ++ [⟨recipient, verdict, now⟩] }

/-- Drops deliveries without a verdict. -/
def lose (x : Exchange σ) (now : Instant) (deliveries : List Delivery) : Exchange σ :=
  deliveries.foldl (fun x d => x.reply now d.replyTo .lost) x

/-- The receiver goes away: nothing can be put on the line any more, and what is on it is dropped. -/
def close (x : Exchange σ) (now : Instant) : Exchange σ :=
  let (dropped, line) := x.line.close
  { x with line }.lose now dropped

/-- Takes the first verdict for somebody. -/
def takeReply? (x : Exchange σ) (id : Nat) : Option (Verdict × Exchange σ) :=
  (x.replies.find? (·.recipient == id)).map fun r =>
    (r.verdict, { x with replies := x.replies.eraseP (·.recipient == id) })

/-- The words for a message out of attempts. -/
def exhausted (m : Message) (retry : Retry) : DeadLetter :=
  ⟨m, .retriesExhausted, "not acknowledged after " ++ toString retry.maxAttempts ++ " attempts"⟩

/-- One step of a courier: the exchange afterwards and how it goes on, if it does. -/
def courierStep (retry : Retry) (now : Instant) (x : Exchange σ) (id : Nat) (m : Message) :
    Courier.Phase → Exchange σ × Option Courier.Phase
  | .attempt n =>
    if n < retry.maxAttempts then
      let delay := retry.delayBefore n
      (x, some (if delay = 0 then .offering n else .resting (Instant.afterPause now delay) n))
    else (x, some .shelving)
  | .resting _ n => (x, some (.offering n))
  | .offering n =>
    if x.line.closed then (x, some .leaving)
    else if x.line.hasRoom then
      ({ x with line := x.line.push ⟨m, n, some id⟩ }, some (.awaiting n))
    else ({ x with line := x.line.enlist id }, some (.queued n))
  | .queued n =>
    if x.line.closed then (x, some .leaving)
    else ({ x with line := x.line.occupy id ⟨m, n, some id⟩ }, some (.awaiting n))
  | .awaiting n =>
    match x.takeReply? id with
    | none => (x, some (.awaiting n))
    | some (.ack, x) => (x, some .leaving)
    | some (_, x) => (x, some (.attempt (n + 1)))
  | .shelving => ({ x with desk := x.desk.shelve (exhausted m retry) }, some .leaving)
  | .leaving => ({ x with outstanding := x.outstanding - 1 }, none)

/-- Whether a courier can go on. -/
def courierReady (now : Instant) (x : Exchange σ) (id : Nat) : Courier.Phase → Bool
  | .resting until_ _ => until_ ≤ now
  | .queued _ => x.line.closed || x.line.granted.contains id
  | .awaiting _ => x.replies.any (·.recipient == id)
  | _ => true

/-- One step of the receiver. -/
def receiverStep (now : Instant) (x : Exchange σ) : Receiver → Turn (Exchange σ) Job
  | .receiving =>
    match x.line.pop? with
    | some (d, line) => { shared := { x with line }, next := some (.receiver (.holding d)) }
    | none => { shared := x, next := some (.receiver .draining) }
  | .holding d =>
    { shared := { x with permits := x.permits - 1 }
      next := some (.receiver .receiving)
      spawned := [.worker { dispatch := { message := d.message }, replyTo := d.replyTo }] }
  | .draining => { shared := { x with receiverEnd := some now }, next := none }

/-- Whether the receiver can go on. -/
def receiverReady (setup : Setup σ) (x : Exchange σ) : Receiver → Bool
  | .receiving => !x.line.queue.isEmpty || x.line.hungUp
  | .holding _ => 0 < x.permits
  | .draining => setup.allPermits ≤ x.permits

/-- One step of a worker. -/
def workerStep (setup : Setup σ) (now : Instant) (x : Exchange σ) (w : Worker) :
    Exchange σ × Option Worker :=
  match w.phase with
  | .dispatching =>
    match w.dispatch.result? with
    | some result => (x, some { w with phase := .settling result })
    | none =>
      let (desk, dispatch) := w.dispatch.step setup.consumer now x.desk
      match dispatch.phase with
      | .beyondClock => ({ x with desk, beyondClock := true }, none)
      | .done result => ({ x with desk }, some { w with dispatch, phase := .settling result })
      | _ => ({ x with desk }, some { w with dispatch })
  | .settling result =>
    match w.label with
    | some label => ({ x with finished := x.finished ++ [⟨label, now, result⟩] }, none)
    | none => (x.reply now w.replyTo (.ofResult result), some { w with phase := .releasing })
  | .releasing => ({ x with permits := x.permits + 1 }, none)

/-- Whether a worker can go on. -/
def workerReady (now : Instant) (w : Worker) : Bool :=
  match w.phase with
  | .dispatching => w.dispatch.ready now
  | _ => true

/-- The tasks of an exchange. -/
def system (setup : Setup σ) : TaskSystem (Exchange σ) Job where
  ready now x id
    | .courier _ phase => courierReady now x id phase
    | .receiver r => receiverReady setup x r
    | .worker w => workerReady now w
    | .timer until_ => until_ ≤ now
  wakeAt
    | .courier _ (.resting until_ _) => some until_
    | .worker w =>
      match w.phase with
      | .dispatching => w.dispatch.wakeAt
      | _ => none
    | .timer until_ => some until_
    | _ => none
  step now x id
    | .courier m phase =>
      let (x, next) := courierStep setup.retry now x id m phase
      { shared := x, next := next.map (.courier m) }
    | .receiver r => receiverStep now x r
    | .worker w =>
      let (x, next) := workerStep setup now x w
      { shared := x, next := next.map .worker }
    | .timer _ => { shared := x, next := none }

end Exchange

end Replica

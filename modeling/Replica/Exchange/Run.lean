import Replica.Exchange.Basic
import Replica.Publisher.Basic
/-! An exchange under way, and what can be done to it from outside: sending messages, starting the
consumer or a single dispatch, letting time pass, taking deliveries by hand, and stopping the consumer.
What lets tasks go on takes `fuel`, a bound on the steps, and gives none if it does not suffice or
nothing can happen any more. -/
namespace Replica

/-- An exchange with its tasks under the clock. -/
abbrev ExchangeRun (σ : Type) := Schedule (Exchange σ) Job

/-- What taking a delivery by hand gave. -/
inductive Taken where
  /-- A delivery. -/
  | delivery (d : Delivery)
  /-- None came in time. -/
  | nothing
  /-- The receiver is gone. -/
  | closed
  deriving DecidableEq

namespace ExchangeRun

open Exchange

variable {σ : Type}

/-- An exchange before anything happened. -/
def start (store : σ) (line : Line) : ExchangeRun σ := { shared := { desk := { store }, line } }

/-- Whether a message can be sent, and the run with it sent: the message gets a courier. -/
def send : Sink (ExchangeRun σ) := fun m run =>
  if run.shared.line.closed then (.error .closed, run)
  else
    let shared := { run.shared with outstanding := run.shared.outstanding + 1 }
    (.ok (), { run with shared }.spawn [.courier m (.attempt 0)])

/-- The consumer begins to receive. -/
def receive (setup : Setup σ) (run : ExchangeRun σ) : ExchangeRun σ :=
  { run with shared := { run.shared with permits := setup.limit } }.spawn [.receiver .receiving]

/-- Starts the dispatch of a message by hand, under a label. -/
def dispatch (label : Nat) (m : Message) (run : ExchangeRun σ) : ExchangeRun σ :=
  run.spawn [.worker { dispatch := { message := m }, label := some label }]

/-- Changes what the tasks share. -/
def change (setup : Setup σ) (f : Exchange σ → Exchange σ) (run : ExchangeRun σ) : ExchangeRun σ :=
  run.poke (system setup) f

/-- Changes the store. -/
def changeStore (setup : Setup σ) (f : σ → σ) (run : ExchangeRun σ) : ExchangeRun σ :=
  run.change setup fun x => { x with desk := { x.desk with store := f x.desk.store } }

/-- Takes all messages set aside away. -/
def drainLetters (setup : Setup σ) (run : ExchangeRun σ) : List DeadLetter × ExchangeRun σ :=
  (run.shared.desk.letters,
    run.change setup fun x => { x with desk := { x.desk with letters := [] } })

/-- Takes the finished dispatches that were started by hand away, by their ends and labels. -/
def takeFinished (run : ExchangeRun σ) : List Finish × ExchangeRun σ :=
  let before (a b : Finish) : Bool := a.at_ < b.at_ || (a.at_ == b.at_ && a.label ≤ b.label)
  (run.shared.finished.mergeSort before, { run with shared := { run.shared with finished := [] } })

/-- Puts a delivery on the line from outside, if there is a receiver. -/
def push (setup : Setup σ) (d : Delivery) (run : ExchangeRun σ) : ExchangeRun σ :=
  run.change setup fun x => if x.line.closed then x else { x with line := x.line.push d }

/-- Nobody sends any more. -/
def hangUp (setup : Setup σ) (run : ExchangeRun σ) : ExchangeRun σ :=
  run.change setup fun x => { x with line := { x.line with hungUp := true } }

/-- Gives a verdict on a delivery taken by hand. -/
def answer (setup : Setup σ) (d : Delivery) (verdict : Verdict) (run : ExchangeRun σ) :
    ExchangeRun σ :=
  run.change setup fun x => x.reply run.now d.replyTo verdict

/-- Keeps a delivery taken by hand under a name; one that was kept there is dropped. -/
def hold (setup : Setup σ) (name : String) (d : Delivery) (held : SortedMap String Delivery)
    (run : ExchangeRun σ) : SortedMap String Delivery × ExchangeRun σ :=
  (held.insert name d, (held.get? name).elim run fun old => run.answer setup old .lost)

/-- Gives a verdict on a delivery that is kept: whether there is one, and what is kept then. -/
def release (setup : Setup σ) (name : String) (verdict : Verdict)
    (held : SortedMap String Delivery) (run : ExchangeRun σ) :
    (Bool × SortedMap String Delivery) × ExchangeRun σ :=
  match held.get? name with
  | none => ((false, held), run)
  | some d =>
    ((true, SortedMap.ofPairs (held.entries.filter (·.1 != name))), run.answer setup d verdict)

/-- The receiver worked by hand goes away. -/
def close (setup : Setup σ) (run : ExchangeRun σ) : ExchangeRun σ :=
  run.change setup fun x => x.close run.now

/-- Stops the consumer: dispatches go on, but the delivery that waits for a permit is dropped, and
the line is closed. -/
def abort (setup : Setup σ) (run : ExchangeRun σ) : ExchangeRun σ :=
  let held := (run.running ++ run.waiting).filterMap fun
    | (_, .receiver (.holding d)) => some d
    | _ => none
  let run : ExchangeRun σ := run.cancel fun _ job => job matches .receiver _
  run.change setup fun x => (x.lose run.now held).close run.now

/-! ### Letting tasks go on -/

/-- Runs all tasks as far as they can go now. -/
def settle (setup : Setup σ) (fuel : Nat) (run : ExchangeRun σ) : Option (ExchangeRun σ) :=
  Schedule.settle (system setup) fuel run

/-- Runs until what the tasks share meets a condition. -/
def runUntil (setup : Setup σ) (fuel : Nat) (stop : Exchange σ → Bool) (run : ExchangeRun σ) :
    Option (ExchangeRun σ) :=
  Schedule.runUntil (system setup) (fun s => stop s.shared) fuel run

/-- Runs until what the tasks share meets a condition or a time has passed: whether it does, and
the run then. -/
def runWithin (setup : Setup σ) (fuel : Nat) (limit : Duration) (stop : Exchange σ → Bool)
    (run : ExchangeRun σ) : Option (Bool × ExchangeRun σ) := do
  let timer := run.nextId
  let run := run.spawn [.timer (Instant.afterPause run.now limit)]
  let run ← Schedule.runUntil (system setup) (fun s => stop s.shared || !s.has timer) fuel run
  return (stop run.shared, run.cancel fun id _ => id == timer)

/-- Lets a time pass. -/
def pass (setup : Setup σ) (fuel : Nat) (time : Duration) (run : ExchangeRun σ) :
    Option (ExchangeRun σ) :=
  (run.runWithin setup fuel time fun _ => false).map (·.2)

/-- Runs until every task has finished. -/
def finish (setup : Setup σ) (fuel : Nat) (run : ExchangeRun σ) : Option (ExchangeRun σ) :=
  Schedule.runUntil (system setup) (fun s => s.running.isEmpty && s.waiting.isEmpty) fuel run

/-- Runs until every message sent has reached its end. -/
def settled (setup : Setup σ) (fuel : Nat) (run : ExchangeRun σ) : Option (ExchangeRun σ) :=
  run.runUntil setup fuel (·.outstanding == 0)

/-- Dispatches a message by hand: the result, and the run once it is known. -/
def dispatched (setup : Setup σ) (fuel : Nat) (label : Nat) (m : Message) (run : ExchangeRun σ) :
    Option (DispatchResult × ExchangeRun σ) := do
  let mine (f : Finish) : Bool := f.label == label
  let run ← (run.dispatch label m).runUntil setup fuel (·.finished.any mine)
  let finish ← run.shared.finished.find? mine
  return (finish.result,
    run.change setup fun x => { x with finished := x.finished.filter (!mine ·) })

/-- Takes the next delivery by hand, waiting for one up to a time. -/
def take (setup : Setup σ) (fuel : Nat) (limit : Duration) (run : ExchangeRun σ) :
    Option (Taken × ExchangeRun σ) :=
  if run.shared.line.closed then some (.closed, run)
  else do
    let (_, run) ← run.runWithin setup fuel limit fun x => !x.line.queue.isEmpty
    match run.shared.line.pop? with
    | none => return (.nothing, run)
    | some (d, line) => return (.delivery d, run.change setup fun x => { x with line })

/-- A delivery to come, the time before it counted from the one before. -/
structure Arrival where
  /-- The time before it. -/
  after : Duration
  /-- The delivery. -/
  delivery : Delivery
  deriving DecidableEq

/-- Feeds deliveries to the consumer one after another, and gives the moments at which they were
put on the line. -/
def feed (setup : Setup σ) (fuel : Nat) : List Arrival → ExchangeRun σ →
    Option (List Instant × ExchangeRun σ)
  | [], run => some ([], run)
  | arrival :: arrivals, run => do
    let run ← if arrival.after = 0 then some run else run.pass setup fuel arrival.after
    let (times, last) ← feed setup fuel arrivals (run.push setup arrival.delivery)
    return (run.now :: times, last)

/-- Lets the consumer receive deliveries until nobody sends any more and it has finished. -/
def consume (setup : Setup σ) (fuel : Nat) (arrivals : List Arrival) (run : ExchangeRun σ) :
    Option (List Instant × ExchangeRun σ) := do
  let (times, run) ← (run.receive setup).feed setup fuel arrivals
  let run ← (run.hangUp setup).runUntil setup fuel (·.receiverEnd.isSome)
  return (times, run)

end ExchangeRun

end Replica

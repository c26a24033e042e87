import Replica.Exchange.Basic
import Replica.Proofs.SortedMap
/-! The bus with an open receiving end. A post holds the couriers of all messages sent and the deliveries
that were taken from the line and have no verdict yet. Whoever receives may take and answer them in any
order, drop them or go away; moves say what happens next, and every interleaving of couriers and receiver
is a list of moves. Each move leaves events, and the events so far are the history of the post. -/
namespace Replica

/-- Who brings a message to the line, and how far that is. -/
structure Courier where
  message : Message
  /-- What comes next; none once the courier has finished. -/
  phase : Option Courier.Phase := some (.attempt 0)
  deriving DecidableEq

/-- A bus and its receiving end. -/
structure Post (σ : Type) where
  /-- The line, the verdicts under way and what is shared with others. -/
  exchange : Exchange σ
  now : Instant := 0
  /-- The couriers by number, finished ones included. -/
  couriers : SortedMap Nat Courier := ∅
  /-- The deliveries that were taken and have no verdict yet. -/
  hands : List Delivery := []

namespace Post

/-- What can happen next. -/
inductive Move (σ : Type) where
  /-- A message is sent, under a number that is free. -/
  | send (id : Nat) (m : Message)
  /-- A courier makes its next atomic step, if it can. -/
  | step (id : Nat)
  /-- The next delivery is taken from the line. -/
  | take
  /-- A delivery that was taken is given a verdict, or dropped. -/
  | answer (d : Delivery) (verdict : Verdict)
  /-- The receiver goes away. -/
  | close
  /-- Time passes. -/
  | pass (time : Duration)
  /-- Others work at what they share with the bus, but not at the bus. -/
  | other (f : Exchange σ → Exchange σ)

/-- The move is a step of this courier. -/
def Move.isStep {σ : Type} (id : Nat) : Move σ → Bool
  | step n => n == id
  | _ => false

/-- What a move left behind. -/
inductive Event where
  | sent (id : Nat) (m : Message)
  /-- A delivery was put on the line. -/
  | queued (d : Delivery)
  /-- A delivery was to be put on the line, but the receiver was gone. -/
  | refused (d : Delivery)
  | taken (d : Delivery)
  /-- A delivery was given a verdict, or dropped. -/
  | answered (d : Delivery) (verdict : Verdict)
  /-- A courier set a message aside. -/
  | shelved (id : Nat) (letter : DeadLetter)
  | left (id : Nat)
  | closed
  deriving DecidableEq

open Exchange

variable {σ : Type}

/-- A post before any message. -/
def opened (capacity : Nat) (s : σ) : Post σ :=
  { exchange := { desk := { store := s }, line := .ofCapacity capacity } }

/-- Makes a move. -/
def next (retry : Retry) (post : Post σ) : Move σ → Post σ
  | .send id m =>
    match post.couriers.get? id with
    | none =>
      if post.exchange.line.closed then post
      else
        { post with
          exchange := { post.exchange with outstanding := post.exchange.outstanding + 1 }
          couriers := post.couriers.insert id { message := m } }
    | some _ => post
  | .step id =>
    match post.couriers.get? id with
    | some ⟨m, some phase⟩ =>
      if courierReady post.now post.exchange id phase then
        let (exchange, phase) := courierStep retry post.now post.exchange id m phase
        { post with exchange, couriers := post.couriers.insert id ⟨m, phase⟩ }
      else post
    | _ => post
  | .take =>
    match post.exchange.line.pop? with
    | some (d, line) =>
      { post with exchange := { post.exchange with line }, hands := post.hands ++ [d] }
    | none => post
  | .answer d verdict =>
    if d ∈ post.hands then
      { post with
        exchange := post.exchange.reply post.now d.replyTo verdict
        hands := post.hands.erase d }
    else post
  | .close => { post with exchange := post.exchange.close post.now }
  | .pass time => { post with now := post.now + time }
  | .other f =>
    { post with
      exchange :=
        { f post.exchange with
          line := post.exchange.line
          replies := post.exchange.replies
          outstanding := post.exchange.outstanding } }

/-- What a step of a courier left behind, read off the exchange before and after it. -/
def stepEvents (id : Nat) (m : Message) (phase : Courier.Phase) (before after : Exchange σ)
    (next : Option Courier.Phase) : List Event :=
  (after.line.queue.drop before.line.queue.length).map .queued ++
    (after.desk.letters.drop before.desk.letters.length).map (.shelved id) ++
    match phase, next with
    | .offering n, some .leaving | .queued n, some .leaving => [.refused ⟨m, n, some id⟩]
    | _, none => [.left id]
    | _, _ => []

/-- What a move leaves behind. -/
def events (retry : Retry) (post : Post σ) : Move σ → List Event
  | .send id m =>
    if (post.couriers.get? id).isNone && !post.exchange.line.closed then [.sent id m] else []
  | .step id =>
    match post.couriers.get? id with
    | some ⟨m, some phase⟩ =>
      if courierReady post.now post.exchange id phase then
        let (exchange, next) := courierStep retry post.now post.exchange id m phase
        stepEvents id m phase post.exchange exchange next
      else []
    | _ => []
  | .take => (post.exchange.line.pop?.map fun taken => .taken taken.1).toList
  | .answer d verdict => if d ∈ post.hands then [.answered d verdict] else []
  | .close => .closed :: post.exchange.line.close.1.map (.answered · .lost)
  | .pass _ => []
  | .other _ => []

/-- Makes moves one after another. -/
def run (retry : Retry) (moves : List (Move σ)) (post : Post σ) : Post σ :=
  moves.foldl (next retry) post

/-- What moves made one after another leave behind. -/
def history (retry : Retry) : List (Move σ) → Post σ → List Event
  | [], _ => []
  | move :: moves, post => events retry post move ++ history retry moves (next retry post move)

@[simp]
theorem run_nil (retry : Retry) (post : Post σ) : run retry [] post = post := rfl

@[simp]
theorem run_cons (retry : Retry) (move : Move σ) (moves : List (Move σ)) (post : Post σ) :
    run retry (move :: moves) post = run retry moves (next retry post move) := rfl

@[simp]
theorem run_append (retry : Retry) (first second : List (Move σ)) (post : Post σ) :
    run retry (first ++ second) post = run retry second (run retry first post) :=
  List.foldl_append

/-- The effect of a move and the events that it leaves behind: it is quiet, or one of five things
happened. -/
inductive Makes (retry : Retry) (post : Post σ) : Move σ → Post σ → List Event → Prop
  /-- Nothing happened to any message. -/
  | quiet {move : Move σ} {exchange : Exchange σ} (now : Instant)
    (line : exchange.line = post.exchange.line) (replies : exchange.replies = post.exchange.replies)
    (outstanding : exchange.outstanding = post.exchange.outstanding) :
    Makes retry post move { post with now, exchange } []
  | sent {id : Nat} {m : Message} (free : post.couriers.get? id = none)
    (receiving : post.exchange.line.closed = false) :
    Makes retry post (.send id m)
      { post with
        exchange := { post.exchange with outstanding := post.exchange.outstanding + 1 }
        couriers := post.couriers.insert id { message := m } }
      [.sent id m]
  | stepped {id : Nat} {m : Message} {phase : Courier.Phase} {exchange : Exchange σ}
    {next : Option Courier.Phase} (there : post.couriers.get? id = some ⟨m, some phase⟩)
    (ready : courierReady post.now post.exchange id phase = true)
    (made : courierStep retry post.now post.exchange id m phase = (exchange, next)) :
    Makes retry post (.step id)
      { post with exchange, couriers := post.couriers.insert id ⟨m, next⟩ }
      (stepEvents id m phase post.exchange exchange next)
  | taken {d : Delivery} {line : Line} (popped : post.exchange.line.pop? = some (d, line)) :
    Makes retry post .take
      { post with exchange := { post.exchange with line }, hands := post.hands ++ [d] } [.taken d]
  | answered {d : Delivery} {verdict : Verdict} (held : d ∈ post.hands) :
    Makes retry post (.answer d verdict)
      { post with
        exchange := post.exchange.reply post.now d.replyTo verdict
        hands := post.hands.erase d }
      [.answered d verdict]
  | closed :
    Makes retry post .close { post with exchange := post.exchange.close post.now }
      (.closed :: post.exchange.line.queue.map (.answered · .lost))

theorem makes_next (retry : Retry) (post : Post σ) (move : Move σ) :
    Makes retry post move (next retry post move) (events retry post move) := by
  have quiet : Makes retry post move post [] := .quiet post.now rfl rfl rfl
  cases move with
  | send id m =>
    cases found : post.couriers.get? id with
    | some courier => simpa [next, events, found] using quiet
    | none =>
      cases gone : post.exchange.line.closed with
      | true => simpa [next, events, found, gone] using quiet
      | false => simpa [next, events, found, gone] using Makes.sent found gone
  | step id =>
    cases found : post.couriers.get? id with
    | none => simpa [next, events, found] using quiet
    | some courier =>
      obtain ⟨m, _ | phase⟩ := courier
      · simpa [next, events, found] using quiet
      · cases ready : courierReady post.now post.exchange id phase with
        | false => simpa [next, events, found, ready] using quiet
        | true =>
          cases made : courierStep retry post.now post.exchange id m phase with
          | mk exchange after =>
            simpa [next, events, found, ready, made] using Makes.stepped found ready made
  | take =>
    cases popped : post.exchange.line.pop? with
    | none => simpa [next, events, popped] using quiet
    | some taken =>
      obtain ⟨d, line⟩ := taken
      simpa [next, events, popped] using Makes.taken popped
  | answer d verdict =>
    by_cases held : d ∈ post.hands
    · simpa [next, events, held] using Makes.answered held
    · simpa [next, events, held] using quiet
  | close => exact .closed
  | pass time => exact .quiet (post.now + time) rfl rfl rfl
  | other f => exact .quiet post.now rfl rfl rfl

/-! ### The steps of a courier -/

/-- The effect of a courier's step and the events that it leaves behind. -/
inductive Steps (retry : Retry) (x : Exchange σ) (id : Nat) (m : Message) :
    Courier.Phase → Exchange σ → Option Courier.Phase → List Event → Prop
  | begun {n : Nat} {phase : Courier.Phase} (more : n < retry.maxAttempts)
    (goesOn : phase = .offering n ∨ ∃ until_, phase = .resting until_ n) :
    Steps retry x id m (.attempt n) x (some phase) []
  | spent {n : Nat} (none : ¬n < retry.maxAttempts) :
    Steps retry x id m (.attempt n) x (some .shelving) []
  | rested {until_ : Instant} {n : Nat} :
    Steps retry x id m (.resting until_ n) x (some (.offering n)) []
  | refused {phase : Courier.Phase} {n : Nat} (offers : phase = .offering n ∨ phase = .queued n)
    (gone : x.line.closed = true) :
    Steps retry x id m phase x (some .leaving) [.refused ⟨m, n, some id⟩]
  | enlisted {n : Nat} :
    Steps retry x id m (.offering n) { x with line := x.line.enlist id } (some (.queued n)) []
  | put {phase : Courier.Phase} {n : Nat} {line : Line}
    (offers : phase = .offering n ∨ phase = .queued n) (receiving : x.line.closed = false)
    (open_ : line.closed = false) (queue : line.queue = x.line.queue ++ [⟨m, n, some id⟩]) :
    Steps retry x id m phase { x with line } (some (.awaiting n)) [.queued ⟨m, n, some id⟩]
  | acked {n : Nat} {reply : Reply} (found : x.replies.find? (·.recipient == id) = some reply)
    (good : reply.verdict = .ack) :
    Steps retry x id m (.awaiting n) { x with replies := x.replies.eraseP (·.recipient == id) }
      (some .leaving) []
  | failed {n : Nat} {reply : Reply} (found : x.replies.find? (·.recipient == id) = some reply)
    (bad : reply.verdict ≠ .ack) :
    Steps retry x id m (.awaiting n) { x with replies := x.replies.eraseP (·.recipient == id) }
      (some (.attempt (n + 1))) []
  | shelved :
    Steps retry x id m .shelving { x with desk := x.desk.shelve (exhausted m retry) } (some .leaving)
      [.shelved id (exhausted m retry)]
  | left :
    Steps retry x id m .leaving { x with outstanding := x.outstanding - 1 } none [.left id]

theorem steps_courierStep {retry : Retry} {now : Instant} {x after : Exchange σ} {id : Nat}
    {m : Message} {phase : Courier.Phase} {next : Option Courier.Phase}
    (ready : courierReady now x id phase = true)
    (made : courierStep retry now x id m phase = (after, next)) :
    Steps retry x id m phase after next (stepEvents id m phase x after next) := by
  cases phase with
  | attempt n =>
    simp only [courierStep] at made
    split at made
    · obtain ⟨rfl, rfl⟩ := Prod.mk.inj made
      split
      · simpa [stepEvents] using Steps.begun ‹_› (.inl rfl)
      · simpa [stepEvents] using Steps.begun ‹_› (.inr ⟨_, rfl⟩)
    · obtain ⟨rfl, rfl⟩ := Prod.mk.inj made
      simpa [stepEvents] using Steps.spent ‹_›
  | resting until_ n =>
    obtain ⟨rfl, rfl⟩ := Prod.mk.inj made
    simpa [stepEvents] using Steps.rested
  | offering n =>
    simp only [courierStep] at made
    split at made
    · obtain ⟨rfl, rfl⟩ := Prod.mk.inj made
      simpa [stepEvents] using Steps.refused (.inl rfl) ‹_›
    · rename_i receiving
      rw [Bool.not_eq_true] at receiving
      split at made
      · obtain ⟨rfl, rfl⟩ := Prod.mk.inj made
        have pushed : (x.line.push ⟨m, n, some id⟩).closed = false := receiving
        simpa [stepEvents, Line.push] using Steps.put (.inl rfl) receiving pushed rfl
      · obtain ⟨rfl, rfl⟩ := Prod.mk.inj made
        simpa [stepEvents, Line.enlist] using Steps.enlisted
  | queued n =>
    simp only [courierStep] at made
    split at made
    · obtain ⟨rfl, rfl⟩ := Prod.mk.inj made
      simpa [stepEvents] using Steps.refused (.inr rfl) ‹_›
    · rename_i receiving
      rw [Bool.not_eq_true] at receiving
      obtain ⟨rfl, rfl⟩ := Prod.mk.inj made
      have occupied : (x.line.occupy id ⟨m, n, some id⟩).closed = false := receiving
      simpa [stepEvents, Line.occupy] using Steps.put (.inr rfl) receiving occupied rfl
  | awaiting n =>
    obtain ⟨reply, among, own⟩ := List.any_eq_true.1 ready
    cases found : x.replies.find? (·.recipient == id) with
    | none => exact absurd own (List.find?_eq_none.1 found reply among)
    | some first =>
      obtain ⟨recipient, verdict, at_⟩ := first
      simp only [courierStep, takeReply?, found, Option.map_some] at made
      cases verdict <;> obtain ⟨rfl, rfl⟩ := Prod.mk.inj made
      · simpa [stepEvents] using Steps.acked found rfl
      · simpa [stepEvents] using Steps.failed found Verdict.noConfusion
      · simpa [stepEvents] using Steps.failed found Verdict.noConfusion
  | shelving =>
    obtain ⟨rfl, rfl⟩ := Prod.mk.inj made
    simpa [stepEvents, Desk.shelve] using Steps.shelved
  | leaving =>
    obtain ⟨rfl, rfl⟩ := Prod.mk.inj made
    simpa [stepEvents] using Steps.left

end Post

end Replica

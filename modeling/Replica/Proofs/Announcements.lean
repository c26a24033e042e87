import Replica.Proofs.Publication
import Mathlib.Data.List.Forall2
import Mathlib.Data.List.Perm.Basic
import Mathlib.Data.List.ReduceOption
/-! What a publisher tells. Events come by three ways, told at once, told in the background or told again, and in
whatever order; each becomes one message or none, as its rule says, every message is offered to the transport once,
and every event is counted once. The three ways differ only in the flag of the message and in when it is offered:
each puts a message among those that wait to be offered, and two of them offer it right away. -/
namespace Replica

/-- The transport, keeping a list of what it was offered and what it answered. -/
def Sink.logged {σ : Type} (sink : Sink σ) : Sink (List (Message × Except SyncError Unit) × σ) :=
  fun m state => ((sink m state.2).1, state.1 ++ [(m, (sink m state.2).1)], (sink m state.2).2)

/-- The rule holds of a state exactly if each of its conditions does: the field has a text, and it is among those
allowed. -/
theorem PublishRule.holds_iff {rule : PublishRule} {state : Snapshot} :
    rule.holds state = true ↔
      ∀ field texts, rule.states.get? field = some texts →
        ∃ value text, state.get? field = some value ∧ stateText? value = some text ∧ text ∈ texts := by
  have met (condition : String × List String) :
      ((state.get? condition.1).bind stateText?).any condition.2.contains = true ↔
        ∃ value text, state.get? condition.1 = some value ∧ stateText? value = some text ∧
          text ∈ condition.2 := by
    cases state.get? condition.1 with
    | none => simp
    | some value => cases told : stateText? value <;> simp [told]
  simp only [holds, List.all_eq_true, met, SortedMap.get?_eq_some_iff, Prod.forall]

namespace Publisher

/-- An event to be told, at a reading of the wall clock. -/
structure Request where
  /-- The reading of the wall clock. -/
  wall : Stamp
  /-- The event. -/
  event : Event
  /-- The event is told again, as it was asked for. -/
  again : Bool

/-- A publisher at work. -/
structure Press (σ : Type) where
  /-- The publisher. -/
  publisher : Publisher
  /-- What the transport was offered and what it answered, in order. -/
  offered : List (Message × Except SyncError Unit) := []
  /-- The transport. -/
  transport : σ

/-- What can happen next. -/
inductive Act (σ : Type) where
  /-- An event is told. -/
  | publish (wall : Stamp) (event : Event)
  /-- An event is to be told in the background. -/
  | publishLater (wall : Stamp) (event : Event)
  /-- Events are told again, in one batch. -/
  | resync (events : List (Stamp × Event))
  /-- The message at this place among those that wait in the background is sent. -/
  | background (place : Nat)
  /-- The transport changes of itself. -/
  | turn (f : σ → σ)

/-- The events that are to be told, in order. -/
def Act.requests {σ : Type} : Act σ → List Request
  | publish wall event => [⟨wall, event, false⟩]
  | publishLater wall event => [⟨wall, event, false⟩]
  | resync events => events.map fun e => ⟨e.1, e.2, true⟩
  | background _ => []
  | turn _ => []

/-! ### What is told -/

/-- A message is made of the event: it is not test data that is left out, there is a rule for its kind, and it is
a deletion or its state meets every condition of the rule. -/
def Announces (p : Publisher) (event : Event) : Prop :=
  ¬ (p.skipTestData = true ∧ event.isTestData = true) ∧
  ∃ rule, p.rules.get? event.kind = some rule ∧
    (event.action = .deleted ∨
      ∀ field texts, rule.states.get? field = some texts →
        ∃ value text, event.state.get? field = some value ∧
          PublishRule.stateText? value = some text ∧ text ∈ texts)

/-- The message tells the event as it was requested, with those fields of its state that the rule for its kind
lists, or all if the rule has no list. -/
structure Tells (p : Publisher) (request : Request) (m : Message) : Prop where
  kind_eq : m.entityKind = request.event.kind
  id_eq : m.entityId = request.event.id
  action_eq : m.action = request.event.action
  again_iff : m.isForceSync = request.again
  fields : ∃ rule, p.rules.get? request.event.kind = some rule ∧
    (rule.fields = none → m.snapshot = request.event.state) ∧
    ∀ names, rule.fields = some names → ∀ name,
      m.snapshot.get? name = if name ∈ names then request.event.state.get? name else none

/-- What becomes of a request: a message that tells its event, if one is made of it. -/
def Answers (p : Publisher) (request : Request) (made : Option Message) : Prop :=
  (made.isSome = true ↔ p.Announces request.event) ∧ ∀ m, made = some m → p.Tells request m

variable {p : Publisher} {event : Event} {rule : PublishRule}

theorem ruleFor_eq_ok_iff :
    p.ruleFor event = .ok rule ↔
      ¬ (p.skipTestData = true ∧ event.isTestData = true) ∧ p.rules.get? event.kind = some rule ∧
        (event.action = .deleted ∨ rule.holds event.state = true) := by
  unfold ruleFor Action.isDeletion
  cases found : p.rules.get? event.kind <;> grind

theorem announces_iff : p.Announces event ↔ ∃ rule, p.ruleFor event = .ok rule := by
  simp only [Announces, ruleFor_eq_ok_iff, PublishRule.holds_iff, exists_and_left]

theorem tells_messageOf {request : Request} (ruled : p.ruleFor request.event = .ok rule) (stamp : Stamp) :
    p.Tells request { messageOf rule request.event stamp with isForceSync := request.again } where
  kind_eq := rfl
  id_eq := rfl
  action_eq := rfl
  again_iff := rfl
  fields := by
    refine ⟨rule, (ruleFor_eq_ok_iff.1 ruled).2.1, fun all => ?_, fun names listed name => ?_⟩
    · simp [messageOf, PublishRule.outbound, all]
    · simp [messageOf, PublishRule.outbound, listed, Snapshot.get?_project]

namespace Press

variable {σ : Type}

/-- Sends the message at some place among those that wait. -/
def send (sink : Sink σ) (place : Nat) (press : Press σ) : Press σ :=
  match press.publisher.pending[place]? with
  | none => press
  | some m =>
    let (_, publisher, offered, transport) :=
      { press.publisher with pending := press.publisher.pending.eraseIdx place }.send sink.logged m
        (press.offered, press.transport)
    { publisher, offered, transport }

/-- Does what happens next. -/
def next (sink : Sink σ) (press : Press σ) : Act σ → Press σ
  | .publish wall event =>
    let (_, publisher, offered, transport) :=
      press.publisher.publish sink.logged wall event (press.offered, press.transport)
    { publisher, offered, transport }
  | .publishLater wall event => { press with publisher := (press.publisher.publishLater wall event).2 }
  | .resync events =>
    let (_, publisher, offered, transport) :=
      Publisher.resync sink.logged events press.publisher (press.offered, press.transport)
    { publisher, offered, transport }
  | .background place => press.send sink place
  | .turn f => { press with transport := f press.transport }

/-- Does one thing after another. -/
def run (sink : Sink σ) (acts : List (Act σ)) (press : Press σ) : Press σ := acts.foldl (next sink) press

/-- A new publisher with these rules, before any event. -/
def opened (rules : SortedMap String PublishRule) (skipTestData : Bool) (clock : StampClock) (s : σ) :
    Press σ :=
  { publisher := { rules, skipTestData, clock }, transport := s }

/-- The first of the messages that wait is the one that the publisher sends next. -/
theorem send_zero (sink : Sink σ) (press : Press σ) :
    press.send sink 0 =
      let (publisher, offered, transport) :=
        press.publisher.sendPending sink.logged (press.offered, press.transport)
      { publisher, offered, transport } := by
  unfold send sendPending
  cases pending : press.publisher.pending with
  | nil => rfl
  | cons m rest => simp

/-- Puts the message about an event, if there is to be one, among those that wait. -/
def enqueue (request : Request) (press : Press σ) : Press σ :=
  match press.publisher.build request.wall request.event with
  | (.error why, p) => { press with publisher := p.skip why }
  | (.ok m, p) =>
    { press with
      publisher := { p with pending := p.pending ++ [{ m with isForceSync := request.again }] } }

/-! ### The three ways -/

/-- What is put last among the messages that wait and sent right away is told at once. -/
theorem send_enqueue (sink : Sink σ) (request : Request) (press : Press σ) :
    (press.enqueue request).send sink press.publisher.pending.length =
      let (_, publisher, offered, transport) :=
        press.publisher.publishWith (fun m => { m with isForceSync := request.again }) sink.logged
          request.wall request.event (press.offered, press.transport)
      { publisher, offered, transport } := by
  unfold enqueue publishWith
  cases ruled : press.publisher.ruleFor request.event with
  | error why => simp [build_of_error ruled, Press.send, Publisher.skip]
  | ok rule => simp [build_of_ok ruled, Press.send, List.eraseIdx_append_of_length_le]

theorem next_publish (sink : Sink σ) (wall : Stamp) (event : Event) (press : Press σ) :
    press.next sink (.publish wall event) =
      (press.enqueue ⟨wall, event, false⟩).send sink press.publisher.pending.length := by
  rw [send_enqueue]
  cases ruled : press.publisher.ruleFor event with
  | error why => simp [next, publish, publishWith, build_of_error ruled]
  | ok rule => simp [next, publish, publishWith, build_of_ok ruled, messageOf]

theorem next_publishLater (sink : Sink σ) (wall : Stamp) (event : Event) (press : Press σ) :
    press.next sink (.publishLater wall event) = press.enqueue ⟨wall, event, false⟩ := by
  unfold next enqueue publishLater
  cases ruled : press.publisher.ruleFor event with
  | error why => simp [build_of_error ruled]
  | ok rule => simp [build_of_ok ruled, messageOf]

theorem next_resync_nil (sink : Sink σ) (press : Press σ) : press.next sink (.resync []) = press := rfl

/-- A batch tells its first event and then the rest. -/
theorem next_resync_cons (sink : Sink σ) (wall : Stamp) (event : Event) (events : List (Stamp × Event))
    (press : Press σ) :
    press.next sink (.resync ((wall, event) :: events)) =
      ((press.enqueue ⟨wall, event, true⟩).send sink press.publisher.pending.length).next sink
        (.resync events) := by
  rw [send_enqueue]
  rfl

/-! ### The books -/

/-- What became of the requests so far: each was answered, the messages made were offered or wait to be, their
stamps rise, and the counters say so. -/
structure Accounts (start : Publisher) (requests : List Request) (made : List (Option Message))
    (press : Press σ) : Prop where
  rules_eq : press.publisher.rules = start.rules
  skips_eq : press.publisher.skipTestData = start.skipTestData
  answered : List.Forall₂ start.Answers requests made
  kept : (press.offered.map (·.1) ++ press.publisher.pending).Perm made.reduceOption
  rising : made.reduceOption.Pairwise fun a b => StampClock.Rises a.emittedAt b.emittedAt
  stamped : ∀ m ∈ made.reduceOption, m.emittedAt ≤ press.publisher.clock.last
  published_eq : press.publisher.stats.published = press.offered.countP (·.2.isOk)
  failures_eq : press.publisher.stats.sendFailures = press.offered.countP (!·.2.isOk)
  skipped_eq : press.publisher.stats.filtered + press.publisher.stats.unrouted +
    made.reduceOption.length = requests.length

namespace Accounts

variable {start : Publisher} {requests : List Request} {made : List (Option Message)} {press : Press σ}

/-- A request is answered by a message, which waits to be offered then, or counted as skipped. -/
theorem enqueue (accounts : Accounts start requests made press) (request : Request) :
    ∃ answer, Accounts start (requests ++ [request]) (made ++ [answer]) (press.enqueue request) := by
  have same : press.publisher.ruleFor request.event = start.ruleFor request.event := by
    simp only [ruleFor, accounts.rules_eq, accounts.skips_eq]
  have before := accounts.skipped_eq
  cases ruled : start.ruleFor request.event with
  | error why =>
    have answers : start.Answers request none := by simp [Answers, announces_iff, ruled]
    have unchanged : (made ++ [none]).reduceOption = made.reduceOption := by
      simp [List.reduceOption_append]
    refine ⟨none, ?_⟩
    rw [Press.enqueue, build_of_error (same.trans ruled)]
    constructor
    case answered => exact List.rel_append accounts.answered (.cons answers .nil)
    case skipped_eq =>
      rw [unchanged]
      cases why <;> simp [Publisher.skip, PublishStats.countSkip] <;> omega
    case kept => exact unchanged ▸ accounts.kept
    case rising => exact unchanged ▸ accounts.rising
    case stamped => exact unchanged ▸ accounts.stamped
    case rules_eq => exact accounts.rules_eq
    case skips_eq => exact accounts.skips_eq
    case published_eq => cases why <;> exact accounts.published_eq
    case failures_eq => cases why <;> exact accounts.failures_eq
  | ok rule =>
    let m : Message := { messageOf rule request.event
      (StampClock.due request.wall press.publisher.clock.last) with isForceSync := request.again }
    have answers : start.Answers request (some m) := by
      refine ⟨by simpa using announces_iff.2 ⟨rule, ruled⟩, ?_⟩
      rintro _ ⟨⟩
      exact tells_messageOf ruled _
    have grown : (made ++ [some m]).reduceOption = made.reduceOption ++ [m] := by
      simp [List.reduceOption_append]
    have rises : StampClock.Rises press.publisher.clock.last m.emittedAt := StampClock.rises_due _ _
    obtain ⟨rising, stamped⟩ := rises.pairwise_append Message.emittedAt accounts.rising accounts.stamped
    refine ⟨some m, ?_⟩
    rw [Press.enqueue, build_of_ok (same.trans ruled)]
    constructor
    case answered => exact List.rel_append accounts.answered (.cons answers .nil)
    case kept =>
      rw [grown, ← List.append_assoc]
      exact accounts.kept.append_right [m]
    case rising => exact grown ▸ rising
    case stamped => exact grown ▸ stamped
    case skipped_eq =>
      rw [grown, List.length_append, List.length_append, ← before]
      exact (Nat.add_assoc ..).symm
    case rules_eq => exact accounts.rules_eq
    case skips_eq => exact accounts.skips_eq
    case published_eq => exact accounts.published_eq
    case failures_eq => exact accounts.failures_eq

/-- A message that waits is offered to the transport, and its answer is counted. -/
theorem send (accounts : Accounts start requests made press) (sink : Sink σ) (place : Nat) :
    Accounts start requests made (press.send sink place) := by
  unfold Press.send
  cases waits : press.publisher.pending[place]? with
  | none => exact accounts
  | some m =>
    have first : (m :: press.publisher.pending.eraseIdx place).Perm press.publisher.pending := by
      obtain ⟨bound, rfl⟩ := List.getElem?_eq_some_iff.1 waits
      exact List.getElem_cons_eraseIdx_perm bound
    have published := accounts.published_eq
    have failures := accounts.failures_eq
    constructor
    case kept =>
      refine List.Perm.trans ?_ accounts.kept
      simpa [Publisher.send, Sink.logged] using first.append_left _
    case published_eq =>
      cases answer : (sink m press.transport).1 <;>
        simp [Publisher.send, Sink.logged, answer, PublishStats.countSend, published, Except.isOk, Except.toBool]
    case failures_eq =>
      cases answer : (sink m press.transport).1 <;>
        simp [Publisher.send, Sink.logged, answer, PublishStats.countSend, failures, Except.isOk, Except.toBool]
    case skipped_eq =>
      cases answer : (sink m press.transport).1 <;>
        simpa [Publisher.send, Sink.logged, answer, PublishStats.countSend] using accounts.skipped_eq
    case rules_eq => exact accounts.rules_eq
    case skips_eq => exact accounts.skips_eq
    case answered => exact accounts.answered
    case rising => exact accounts.rising
    case stamped => exact accounts.stamped

/-- Whatever happens next, the books stay right. -/
theorem next (accounts : Accounts start requests made press) (sink : Sink σ) (act : Act σ) :
    ∃ more, Accounts start (requests ++ act.requests) (made ++ more) (press.next sink act) := by
  cases act with
  | publish wall event =>
    obtain ⟨answer, waiting⟩ := accounts.enqueue ⟨wall, event, false⟩
    rw [next_publish]
    exact ⟨[answer], waiting.send sink _⟩
  | publishLater wall event =>
    obtain ⟨answer, waiting⟩ := accounts.enqueue ⟨wall, event, false⟩
    rw [next_publishLater]
    exact ⟨[answer], waiting⟩
  | resync events =>
    induction events generalizing requests made press with
    | nil => exact ⟨[], by simpa [Act.requests, next_resync_nil] using accounts⟩
    | cons first events ih =>
      obtain ⟨answer, waiting⟩ := accounts.enqueue ⟨first.1, first.2, true⟩
      obtain ⟨more, told⟩ := ih (waiting.send sink press.publisher.pending.length)
      rw [next_resync_cons]
      exact ⟨answer :: more, by simpa [Act.requests] using told⟩
  | background place => exact ⟨[], by simpa [Act.requests, Press.next] using accounts.send sink place⟩
  | turn f =>
    refine ⟨[], ?_⟩
    rw [List.append_nil, Act.requests, List.append_nil]
    exact { accounts with }

theorem run (accounts : Accounts start requests made press) (sink : Sink σ) (acts : List (Act σ)) :
    ∃ more, Accounts start (requests ++ acts.flatMap Act.requests) (made ++ more) (press.run sink acts) := by
  induction acts generalizing requests made press with
  | nil => exact ⟨[], by simpa [Press.run] using accounts⟩
  | cons act acts ih =>
    obtain ⟨first, before⟩ := accounts.next sink act
    obtain ⟨more, after⟩ := ih before
    refine ⟨first ++ more, ?_⟩
    rw [List.flatMap_cons, ← List.append_assoc, ← List.append_assoc]
    exact after

/-- The books of a new publisher are empty. -/
theorem opened (rules : SortedMap String PublishRule) (skipTestData : Bool) (clock : StampClock) (s : σ) :
    Accounts { rules, skipTestData, clock } [] [] (Press.opened rules skipTestData clock s) := by
  constructor <;> first | rfl | simp [Press.opened]

end Accounts

theorem pending_send (sink : Sink σ) (place : Nat) (press : Press σ) :
    (press.send sink place).publisher.pending = press.publisher.pending.eraseIdx place := by
  unfold send
  cases waits : press.publisher.pending[place]? with
  | none => exact (List.eraseIdx_of_length_le (List.getElem?_eq_none_iff.1 waits)).symm
  | some m => rfl

/-- As many sendings in the background as messages wait leave none waiting. -/
theorem pending_run_background (sink : Sink σ) (press : Press σ) :
    (press.run sink (List.replicate press.publisher.pending.length (.background 0))).publisher.pending = [] := by
  generalize count : press.publisher.pending.length = n
  induction n generalizing press with
  | zero => exact List.length_eq_zero_iff.1 count
  | succ n ih =>
    refine ih (press.send sink 0) ?_
    rw [pending_send, List.length_eraseIdx_of_lt (by omega), count]
    rfl

/-- Take any rules, any transport, and any events told at once, in the background or again in batches, in
whatever order, while messages that wait in the background are sent in any order and the transport does what it
likes. A message is made of an event exactly if the event is not test data that is left out, has a rule, and is a
deletion or meets every condition of the rule; it tells kind, id and action of the event and the fields that the
rule lists, and is marked as asked for exactly if the event is told again. The messages offered to the transport,
and those that still wait, are the messages made, each once. Their stamps rise in the order in which they were
made, while the greatest stamp is not reached. What counts as published is what the transport took; and when no
message waits, which sending them in the background achieves, every event is in one counter. -/
theorem messages_offered_once {rules : SortedMap String PublishRule} {skipTestData : Bool}
    {clock : StampClock} {sink : Sink σ} {acts : List (Act σ)} {s : σ} {press : Press σ}
    (reached : (opened rules skipTestData clock s).run sink acts = press) :
    ∃ made : List (Option Message),
      List.Forall₂ (Answers { rules, skipTestData, clock }) (acts.flatMap Act.requests) made ∧
      (press.offered.map (·.1) ++ press.publisher.pending).Perm made.reduceOption ∧
      made.reduceOption.Pairwise (fun a b =>
        a.emittedAt < b.emittedAt ∨ a.emittedAt = .greatest ∧ b.emittedAt = .greatest) ∧
      (press.publisher.clock.last < .greatest →
        made.reduceOption.Pairwise fun a b => a.emittedAt < b.emittedAt) ∧
      press.publisher.stats.published = press.offered.countP (·.2.isOk) ∧
      (press.publisher.pending = [] →
        (press.offered.map (·.1)).Perm made.reduceOption ∧
        press.publisher.stats.published + press.publisher.stats.sendFailures +
          press.publisher.stats.filtered + press.publisher.stats.unrouted =
            (acts.flatMap Act.requests).length) ∧
      (press.run sink (List.replicate press.publisher.pending.length (.background 0))).publisher.pending =
        [] := by
  subst reached
  obtain ⟨made, accounts⟩ := (Accounts.opened rules skipTestData clock s).run sink acts
  generalize (opened rules skipTestData clock s).run sink acts = press at accounts
  rw [List.nil_append, List.nil_append] at accounts
  refine ⟨made, accounts.answered, accounts.kept, accounts.rising, fun below => ?_, accounts.published_eq,
    fun none => ?_, pending_run_background sink press⟩
  · exact accounts.rising.imp_of_mem fun _ there rises =>
      rises.lt (Int.lt_of_le_of_lt (accounts.stamped _ there) below)
  · have kept := accounts.kept
    rw [none, List.append_nil] at kept
    refine ⟨kept, ?_⟩
    have offered : press.offered.length = made.reduceOption.length := by simpa using kept.length_eq
    have answered := List.length_eq_countP_add_countP (fun e : Message × Except SyncError Unit => e.2.isOk)
      (l := press.offered)
    have published := accounts.published_eq
    have failures := accounts.failures_eq
    have skipped := accounts.skipped_eq
    simp only [Bool.not_eq_true, Bool.decide_eq_false] at answered
    omega

section Samples

open Fixtures

/-- Active companies are told, with their name only. -/
def activeOnly : SortedMap String PublishRule :=
  SortedMap.ofPairs
    [("company", ({ kind := "company", fields := some ["name"] } : PublishRule).allow "status" ["active"])]

def acmeActive : Event := acmeChanged [("name", .str "Acme"), ("notes", .str "?"), ("status", .str "active")] false

/-- A change is to be told in the background; another one does not meet the rule; the transport refuses what is told
again, among it something without a rule, and then takes what waited. -/
def assorted : List (Act Outbox) :=
  [ .publishLater (stamp 3) acmeActive, .publish (stamp 4) (acmeChanged [("status", .str "draft")] false),
    .turn (fun outbox => { outbox with refusal := some .closed }),
    .resync [(stamp 2, acmeActive), (stamp 2, { acmeActive with kind := "invoice" })],
    .turn (fun outbox => { outbox with refusal := none }), .background 0 ]

theorem messages_offered_once_assorted :
    (((opened activeOnly true {} {}).run Outbox.sink assorted).publisher.clock.last < .greatest ∧
      ((opened activeOnly true {} {}).run Outbox.sink assorted).publisher.pending = []) ∧
    ((opened activeOnly true {} {}).run Outbox.sink assorted).publisher.stats =
      { published := 1, filtered := 1, unrouted := 1, sendFailures := 1 } ∧
    ∃ made : List (Option Message),
      List.Forall₂ (Answers { rules := activeOnly }) (assorted.flatMap Act.requests) made ∧
      (((opened activeOnly true {} {}).run Outbox.sink assorted).offered.map (·.1)).Perm
        made.reduceOption ∧
      made.reduceOption.Pairwise fun a b => a.emittedAt < b.emittedAt := by
  have below : ((opened activeOnly true {} {}).run Outbox.sink assorted).publisher.clock.last <
      .greatest := by decide
  have none : ((opened activeOnly true {} {}).run Outbox.sink assorted).publisher.pending = [] := rfl
  have reached : (opened activeOnly true {} {}).run Outbox.sink assorted =
      (opened activeOnly true {} {}).run Outbox.sink assorted := rfl
  obtain ⟨made, answered, -, -, rising, -, done, -⟩ := messages_offered_once reached
  exact ⟨⟨below, none⟩, by decide, made, answered, (done none).1, rising below⟩

end Samples

end Press

end Publisher

end Replica

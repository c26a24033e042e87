import Replica.Proofs.Crew
import Replica.Proofs.Progress
import Replica.Proofs.Unfolding
/-! Messages that are delivered once. If no dispatch fails, each message goes through the same stages, from
its courier to the line, to the receiver, to a worker and back. Line, verdicts, permits and tasks are what the
stages of all messages say, and a step of any task takes one message one stage on. -/
namespace Replica

/-- The delivery that waits for a permit. -/
def Receiver.held : Receiver → List Delivery
  | .holding d => [d]
  | _ => []

/-- The verdict, and whose it is. -/
def Reply.answer (reply : Reply) : Nat × Verdict := (reply.recipient, reply.verdict)

namespace Exchange

/-- The result of a dispatch that wrote the first record of its entity. -/
abbrev landed : DispatchResult := .ok (.applied .inserted)

/-- How far a courier is whose message has its verdict. -/
inductive Return where
  | told
  | leaving
  | gone

/-- How far a message is. The worker outlives its dispatch until it has given its permit back. -/
inductive Stage where
  | setOut
  | offering
  | queued
  | onLine
  | held
  | dispatching (worker : Nat) (phase : Dispatch.Phase)
  | settling (worker : Nat)
  | returning (courier : Return) (worker : Option Nat)

/-- The stage of a message whose dispatch has come to a phase. -/
def Stage.ofPhase (worker : Nat) : Dispatch.Phase → Stage
  | .done _ => settling worker
  | phase => dispatching worker phase

/-- A message with the number of its courier. -/
structure Item where
  id : Nat
  message : Message
  stage : Stage

namespace Item

def delivery (i : Item) : Delivery := ⟨i.message, 0, some i.id⟩

def courier (i : Item) (phase : Courier.Phase) : Nat × Job := (i.id, .courier i.message phase)

def worker (i : Item) (n : Nat) (phase : Dispatch.Phase) (stands : Worker.Phase) : Nat × Job :=
  (n, .worker { dispatch := ⟨i.message, phase⟩, phase := stands, replyTo := some i.id })

def returning (i : Item) : Return → List (Nat × Job)
  | .told => [i.courier (.awaiting 0)]
  | .leaving => [i.courier .leaving]
  | .gone => []

def releasing (i : Item) : Option Nat → List (Nat × Job)
  | some n => [i.worker n (.done landed) .releasing]
  | none => []

/-- The tasks that have to do with the message. -/
def tasks (i : Item) : List (Nat × Job) :=
  match i.stage with
  | .setOut => [i.courier (.attempt 0)]
  | .offering => [i.courier (.offering 0)]
  | .queued => [i.courier (.queued 0)]
  | .onLine => [i.courier (.awaiting 0)]
  | .held => [i.courier (.awaiting 0)]
  | .dispatching n phase => [i.courier (.awaiting 0), i.worker n phase .dispatching]
  | .settling n => [i.courier (.awaiting 0), i.worker n (.done landed) (.settling landed)]
  | .returning courier n => i.returning courier ++ i.releasing n

def onLine? (i : Item) : Option Delivery :=
  match i.stage with
  | .onLine => some i.delivery
  | _ => none

def held? (i : Item) : Option Delivery :=
  match i.stage with
  | .held => some i.delivery
  | _ => none

def queued? (i : Item) : Option Nat :=
  match i.stage with
  | .queued => some i.id
  | _ => none

def reply? (i : Item) : Option (Nat × Verdict) :=
  match i.stage with
  | .returning .told _ => some (i.id, .ack)
  | _ => none

def hasCourier (i : Item) : Bool :=
  match i.stage with
  | .returning .gone _ => false
  | _ => true

def hasWorker (i : Item) : Bool :=
  match i.stage with
  | .dispatching .. => true
  | .settling _ => true
  | .returning _ n => n.isSome
  | _ => false

end Item

/-! ### The line -/

/-- What is on the line, and who waits for room. -/
structure LineHolds (line : Line) (deliveries : List Delivery) (waiting : List Nat) : Prop where
  queue : line.queue.Perm deliveries
  waiting : (line.senders ++ line.granted).Perm waiting
  /-- Nobody waits for room that is there. -/
  full : line.senders ≠ [] → line.capacity ≤ line.queue.length + line.granted.length
  capacity : 0 < line.capacity
  open_ : line.closed = false
  goesOn : line.hungUp = false

namespace LineHolds

variable {line : Line} {deliveries : List Delivery} {waiting : List Nat} {d : Delivery} {id : Nat}

theorem perm (holds : LineHolds line deliveries waiting) {deliveries' : List Delivery} {waiting' : List Nat}
    (same : deliveries.Perm deliveries') (same' : waiting.Perm waiting') : LineHolds line deliveries' waiting' :=
  { holds with queue := holds.queue.trans same, waiting := holds.waiting.trans same' }

theorem push (holds : LineHolds line deliveries waiting) (d : Delivery) :
    LineHolds (line.push d) (d :: deliveries) waiting where
  queue := (List.perm_append_singleton ..).trans (holds.queue.cons d)
  waiting := holds.waiting
  full some := by
    have full := holds.full some
    simp only [Line.push, List.length_append]
    omega
  capacity := holds.capacity
  open_ := holds.open_
  goesOn := holds.goesOn

theorem enlist (holds : LineHolds line deliveries waiting) (none : line.hasRoom = false) (id : Nat) :
    LineHolds (line.enlist id) deliveries (id :: waiting) where
  queue := holds.queue
  waiting := by
    simp only [Line.enlist, List.append_assoc, List.singleton_append]
    exact List.perm_middle.trans (holds.waiting.cons id)
  full _ := by simpa [Line.hasRoom, Line.enlist] using none
  capacity := holds.capacity
  open_ := holds.open_
  goesOn := holds.goesOn

theorem occupy (holds : LineHolds line deliveries (id :: waiting)) (granted : id ∈ line.granted) (d : Delivery) :
    LineHolds (line.occupy id d) (d :: deliveries) waiting where
  queue := (List.perm_append_singleton ..).trans (holds.queue.cons d)
  waiting := by
    have first : (line.senders ++ line.granted).Perm (id :: (line.senders ++ line.granted.erase id)) :=
      ((List.perm_cons_erase granted).append_left _).trans List.perm_middle
    exact (first.symm.trans holds.waiting).cons_inv
  full some := by
    have full := holds.full some
    have fewer := List.length_erase_of_mem granted
    have more := List.length_pos_of_mem granted
    simp only [Line.occupy, List.length_append, List.length_singleton]
    omega
  capacity := holds.capacity
  open_ := holds.open_
  goesOn := holds.goesOn

theorem pop (holds : LineHolds line (d :: deliveries) waiting) {after : Line} (popped : line.pop? = some (d, after)) :
    LineHolds after deliveries waiting := by
  unfold Line.pop? at popped
  split at popped
  · cases popped
  · rename_i first queue there
    have rest := holds.queue
    rw [there] at rest
    split at popped
    · rename_i nobody
      obtain ⟨rfl, rfl⟩ := Prod.mk.inj (Option.some.inj popped)
      refine { holds with queue := rest.cons_inv, full := fun some => absurd nobody some }
    · rename_i sender senders waits
      obtain ⟨rfl, rfl⟩ := Prod.mk.inj (Option.some.inj popped)
      refine { holds with queue := rest.cons_inv, waiting := ?_, full := fun _ => ?_ }
      · have same := holds.waiting
        rw [waits] at same
        refine .trans ?_ same
        simp only [← List.append_assoc]
        exact List.perm_append_singleton ..
      · have full := holds.full (by simp [waits])
        simp only [there, List.length_cons, List.length_append, List.length_nil] at full ⊢
        omega

end LineHolds

/-! ### The exchange -/

variable {setup : Setup Store} {s t : ExchangeRun Store} {items others : List Item} {item later : Item}
  {r : Receiver} {n : Nat} {job : Job} {rest : List (Nat × Job)}

/-- What the tasks share is as the stages of the messages say. -/
structure Shows (limit : Nat) (x : Exchange Store) (items : List Item) (r : Receiver) : Prop where
  ids : (items.map (·.id)).Nodup
  line : LineHolds x.line (items.filterMap Item.onLine?) (items.filterMap Item.queued?)
  held : (items.filterMap Item.held?).Perm r.held
  replies : (x.replies.map Reply.answer).Perm (items.filterMap Item.reply?)
  outstanding : x.outstanding = items.countP Item.hasCourier
  permits : x.permits + items.countP Item.hasWorker = limit
  withinClock : x.beyondClock = false

theorem Shows.perm {limit : Nat} {x : Exchange Store} (exchange : Shows limit x items r) {items' : List Item}
    (same : items.Perm items') : Shows limit x items' r where
  ids := (same.map _).nodup_iff.1 exchange.ids
  line := exchange.line.perm (same.filterMap _) (same.filterMap _)
  held := (same.filterMap _).symm.trans exchange.held
  replies := exchange.replies.trans (same.filterMap _)
  outstanding := exchange.outstanding.trans (same.countP_eq _)
  permits := (same.countP_eq _) ▸ exchange.permits
  withinClock := exchange.withinClock

theorem eq_of_reply? {k : Nat} {verdict : Verdict} (told : item.reply? = some (k, verdict)) :
    item.id = k ∧ verdict = .ack ∧ ∃ w, item.stage = .returning .told w := by
  unfold Item.reply? at told
  split at told
  · obtain ⟨rfl, rfl⟩ := Prod.mk.inj (Option.some.inj told)
    exact ⟨rfl, rfl, _, ‹_›⟩
  · cases told

/-- A courier has a verdict only if its message is answered. -/
theorem Shows.answered {limit : Nat} {x : Exchange Store} (shows_ : Shows limit x (item :: others) r)
    (told : x.replies.any (·.recipient == item.id) = true) : ∃ w, item.stage = .returning .told w := by
  obtain ⟨reply, there, own⟩ := List.any_eq_true.1 told
  have among := shows_.replies.mem_iff.1 (List.mem_map_of_mem there)
  obtain ⟨other, inside, same⟩ := List.mem_filterMap.1 among
  obtain ⟨named, -, answered⟩ := eq_of_reply? same
  rcases List.mem_cons.1 inside with rfl | elsewhere
  · exact answered
  · have fresh := (List.nodup_cons.1 shows_.ids).1
    exact absurd (List.mem_map.2 ⟨other, elsewhere, named.trans (beq_iff_eq.1 own)⟩) fresh

/-- The exchange is as the stages of its messages say. -/
structure Layout (limit : Nat) (s : ExchangeRun Store) (items : List Item) (r : Receiver) : Prop where
  tasks : s.tasks.Perm ((0, .receiver r) :: items.flatMap Item.tasks)
  exchange : Shows limit s.shared items r

namespace Layout

variable {limit : Nat}

theorem perm (layout : Layout limit s items r) {items' : List Item} (same : items.Perm items') :
    Layout limit s items' r :=
  ⟨layout.tasks.trans ((same.flatMap_right _).cons _), layout.exchange.perm same⟩

/-- The task that makes a step is the receiver or works for a message. -/
theorem source (layout : Layout limit s items r) (there : (n, job) ∈ s.tasks) :
    n = 0 ∧ job = .receiver r ∨ ∃ item others, items.Perm (item :: others) ∧ (n, job) ∈ item.tasks := by
  rcases List.mem_cons.1 (layout.tasks.mem_iff.1 there) with same | among
  · exact .inl (Prod.mk.inj same)
  · obtain ⟨item, inside, own⟩ := List.mem_flatMap.1 among
    obtain ⟨before, after, rfl⟩ := List.append_of_mem inside
    exact .inr ⟨item, before ++ after, List.perm_middle, own⟩

/-- The tasks after a step of a task that works for a message. -/
theorem tasks_of_item (layout : Layout limit s (item :: others) r)
    (steps : Schedule.Steps (system setup) s t n job rest) {x : Exchange Store} {next : Option Job}
    (made : (system setup).step s.now s.shared n job = { shared := x, next }) (left : List (Nat × Job))
    (own : item.tasks.Perm ((n, job) :: left)) (after : later.tasks.Perm (next.toList.map (n, ·) ++ left)) :
    t.tasks.Perm ((0, .receiver r) :: (later :: others).flatMap Item.tasks) := by
  have all := steps.among.symm.trans layout.tasks
  rw [List.flatMap_cons] at all
  have rest : (rest ++ s.waiting).Perm ((0, .receiver r) :: (left ++ others.flatMap Item.tasks)) :=
    (all.trans (((own.append_right _).cons _).trans (List.Perm.swap ..))).cons_inv
  have now := steps.tasks
  rw [made] at now
  simp only [List.mapIdx_nil, List.append_nil] at now
  refine now.trans (((rest.append_left _).trans ?_))
  rw [List.flatMap_cons]
  refine List.perm_middle.trans (.cons _ ?_)
  rw [← List.append_assoc]
  exact after.symm.append_right _

/-- The tasks after a step of the receiver, who may have started a worker. -/
theorem tasks_of_receiver (layout : Layout limit s (item :: others) r)
    (steps : Schedule.Steps (system setup) s t 0 (.receiver r) rest) {x : Exchange Store} {r' : Receiver}
    {spawned : List Job} (made : (system setup).step s.now s.shared 0 (.receiver r) =
      { shared := x, next := some (.receiver r'), spawned })
    (after : later.tasks.Perm (item.tasks ++ spawned.mapIdx fun i job => (s.nextId + i, job))) :
    t.tasks.Perm ((0, .receiver r') :: (later :: others).flatMap Item.tasks) := by
  have all := steps.among.symm.trans layout.tasks
  rw [List.flatMap_cons] at all
  have rest := all.cons_inv
  have now := steps.tasks
  rw [made] at now
  refine now.trans (.cons _ ?_)
  rw [List.flatMap_cons]
  refine (rest.append_right _).trans ?_
  rw [List.append_assoc]
  refine (List.perm_append_comm.append_left _).trans ?_
  rw [← List.append_assoc]
  exact after.symm.append_right _

end Layout

/-- How a message gets from one stage to the next, and what that does to the desk. -/
inductive Stage.Next (c : Consumer Store) (now : Instant) (m : Message) (desk : Desk Store) :
    Stage → Stage → Desk Store → Prop
  | sets : Next c now m desk .setOut .offering desk
  | puts : Next c now m desk .offering .onLine desk
  | enlists : Next c now m desk .offering .queued desk
  | occupies : Next c now m desk .queued .onLine desk
  | taken : Next c now m desk .onLine .held desk
  | handed {n : Nat} : Next c now m desk .held (.dispatching n .arrived) desk
  | dispatched {n : Nat} {phase after : Dispatch.Phase} {desk' : Desk Store}
    (ready : Dispatch.ready now ⟨m, phase⟩ = true)
    (made : Dispatch.step c now desk ⟨m, phase⟩ = (desk', ⟨m, after⟩)) :
    Next c now m desk (.dispatching n phase) (.ofPhase n after) desk'
  | reported {n : Nat} : Next c now m desk (.settling n) (.returning .told (some n)) desk
  | acknowledged {w : Option Nat} : Next c now m desk (.returning .told w) (.returning .leaving w) desk
  | left {w : Option Nat} : Next c now m desk (.returning .leaving w) (.returning .gone w) desk
  | released {courier : Return} {n : Nat} :
    Next c now m desk (.returning courier (some n)) (.returning courier none) desk

/-- A dispatch can go on, and if it ends it has written the first record of its entity. -/
def Stage.Fine (c : Consumer Store) (now : Instant) (m : Message) (desk : Desk Store) : Stage → Prop
  | .dispatching _ phase => (∀ result, phase ≠ .done result) ∧
    (Dispatch.step c now desk ⟨m, phase⟩).2.phase ≠ .beyondClock ∧
    ∀ result, (Dispatch.step c now desk ⟨m, phase⟩).2.phase = .done result → result = landed
  | _ => True

namespace Layout

variable {limit : Nat} {id : Nat} {m : Message}

/-- One message has gone one stage on. -/
def Advances (setup : Setup Store) (s t : ExchangeRun Store) (item : Item) (others : List Item) (r : Receiver) :
    Prop :=
  ∃ stage, Layout setup.limit t ({ item with stage } :: others) r ∧
    item.stage.Next setup.consumer s.now item.message s.shared.desk stage t.shared.desk

theorem step_receiving (layout : Layout setup.limit s items .receiving)
    (steps : Schedule.Steps (system setup) s t 0 (.receiver .receiving) rest) :
    ∃ item others, items.Perm (item :: others) ∧ Advances setup s t item others (.holding item.delivery) := by
  have here : s.shared.line.queue ≠ [] := by
    simpa [system, receiverReady, layout.exchange.line.goesOn] using steps.ready
  obtain ⟨d, queue, there⟩ := List.exists_cons_of_ne_nil here
  have among : d ∈ items.filterMap Item.onLine? := layout.exchange.line.queue.mem_iff.1 (by simp [there])
  obtain ⟨⟨id, m, stage⟩, inside, same⟩ := List.mem_filterMap.1 among
  obtain ⟨before, after, rfl⟩ := List.append_of_mem inside
  refine ⟨_, _, List.perm_middle, ?_⟩
  have layout := layout.perm List.perm_middle
  cases stage with
  | onLine =>
    obtain ⟨ids, line, held, replies, outstanding, permits, withinClock⟩ := layout.exchange
    obtain rfl : Item.delivery ⟨id, m, .onLine⟩ = d := Option.some.inj same
    obtain ⟨left, popped⟩ : ∃ left, s.shared.line.pop? = some (⟨m, 0, some id⟩, left) := by
      unfold Line.pop?
      rw [there]
      cases s.shared.line.senders <;> exact ⟨_, rfl⟩
    have made : (system setup).step s.now s.shared 0 (.receiver .receiving) =
        { shared := { s.shared with line := left }, next := some (.receiver (.holding ⟨m, 0, some id⟩)) } := by
      simp [system, receiverStep, popped]
    have shared := steps.shared.trans (congrArg Turn.shared made)
    have tasks : t.tasks.Perm ((0, .receiver (.holding ⟨m, 0, some id⟩)) ::
        (⟨id, m, .held⟩ :: (before ++ after)).flatMap Item.tasks) :=
      layout.tasks_of_receiver steps made (.refl _)
    exact ⟨.held, ⟨tasks, shared ▸ ⟨ids, line.pop popped, held.cons _, replies, outstanding, permits,
      withinClock⟩⟩, shared ▸ .taken⟩
  | _ => cases same

theorem step_holding {d : Delivery} (layout : Layout setup.limit s items (.holding d))
    (steps : Schedule.Steps (system setup) s t 0 (.receiver (.holding d)) rest) :
    ∃ item others, items.Perm (item :: others) ∧ Advances setup s t item others .receiving := by
  have some : 0 < s.shared.permits := by simpa [system, receiverReady] using steps.ready
  have among : d ∈ items.filterMap Item.held? := layout.exchange.held.mem_iff.2 (List.mem_singleton_self d)
  obtain ⟨⟨id, m, stage⟩, inside, same⟩ := List.mem_filterMap.1 among
  obtain ⟨before, after, rfl⟩ := List.append_of_mem inside
  refine ⟨_, _, List.perm_middle, ?_⟩
  have layout := layout.perm List.perm_middle
  cases stage with
  | held =>
    obtain ⟨ids, line, held, replies, outstanding, permits, withinClock⟩ := layout.exchange
    obtain rfl : Item.delivery ⟨id, m, .held⟩ = d := Option.some.inj same
    have made : (system setup).step s.now s.shared 0 (.receiver (.holding (Item.delivery ⟨id, m, .held⟩))) =
        { shared := { s.shared with permits := s.shared.permits - 1 }, next := Option.some (.receiver .receiving)
          spawned := [.worker { dispatch := { message := m }, replyTo := Option.some id }] } := rfl
    have shared := steps.shared.trans (congrArg Turn.shared made)
    have fewer : s.shared.permits - 1 +
        (⟨id, m, .dispatching s.nextId .arrived⟩ :: (before ++ after)).countP Item.hasWorker = setup.limit := by
      rw [List.countP_cons_of_neg (by simp [Item.hasWorker])] at permits
      rw [List.countP_cons_of_pos rfl]
      omega
    have tasks : t.tasks.Perm ((0, .receiver .receiving) ::
        (⟨id, m, .dispatching s.nextId .arrived⟩ :: (before ++ after)).flatMap Item.tasks) :=
      layout.tasks_of_receiver steps made (.refl _)
    exact ⟨.dispatching s.nextId .arrived, ⟨tasks, shared ▸ ⟨ids, line, held.cons_inv, replies, outstanding, fewer,
      withinClock⟩⟩, shared ▸ .handed⟩
  | _ => cases same

theorem step_setOut (layout : Layout setup.limit s (⟨n, m, .setOut⟩ :: others) r)
    (steps : Schedule.Steps (system setup) s t n (.courier m (.attempt 0)) rest)
    (attempts : 0 < setup.retry.maxAttempts) : Advances setup s t ⟨n, m, .setOut⟩ others r := by
  obtain ⟨ids, line, held, replies, outstanding, permits, withinClock⟩ := layout.exchange
  have made : (system setup).step s.now s.shared n (.courier m (.attempt 0)) =
      { shared := s.shared, next := some (.courier m (.offering 0)) } := by
    simp [system, courierStep, attempts, Retry.delayBefore]
  have shared := steps.shared.trans (congrArg Turn.shared made)
  exact ⟨.offering, ⟨layout.tasks_of_item steps made [] (.refl _) (.refl _),
    shared ▸ ⟨ids, line, held, replies, outstanding, permits, withinClock⟩⟩, shared ▸ .sets⟩

theorem step_offering (layout : Layout setup.limit s (⟨n, m, .offering⟩ :: others) r)
    (steps : Schedule.Steps (system setup) s t n (.courier m (.offering 0)) rest) :
    Advances setup s t ⟨n, m, .offering⟩ others r := by
  obtain ⟨ids, line, held, replies, outstanding, permits, withinClock⟩ := layout.exchange
  cases room : s.shared.line.hasRoom with
  | true =>
    have made : (system setup).step s.now s.shared n (.courier m (.offering 0)) =
        { shared := { s.shared with line := s.shared.line.push ⟨m, 0, some n⟩ }
          next := some (.courier m (.awaiting 0)) } := by
      simp [system, courierStep, line.open_, room]
    have shared := steps.shared.trans (congrArg Turn.shared made)
    exact ⟨.onLine, ⟨layout.tasks_of_item steps made [] (.refl _) (.refl _),
      shared ▸ ⟨ids, line.push _, held, replies, outstanding, permits, withinClock⟩⟩, shared ▸ .puts⟩
  | false =>
    have made : (system setup).step s.now s.shared n (.courier m (.offering 0)) =
        { shared := { s.shared with line := s.shared.line.enlist n }
          next := some (.courier m (.queued 0)) } := by
      simp [system, courierStep, line.open_, room]
    have shared := steps.shared.trans (congrArg Turn.shared made)
    exact ⟨.queued, ⟨layout.tasks_of_item steps made [] (.refl _) (.refl _),
      shared ▸ ⟨ids, line.enlist room _, held, replies, outstanding, permits, withinClock⟩⟩, shared ▸ .enlists⟩

theorem step_queued (layout : Layout setup.limit s (⟨n, m, .queued⟩ :: others) r)
    (steps : Schedule.Steps (system setup) s t n (.courier m (.queued 0)) rest) :
    Advances setup s t ⟨n, m, .queued⟩ others r := by
  obtain ⟨ids, line, held, replies, outstanding, permits, withinClock⟩ := layout.exchange
  have granted : n ∈ s.shared.line.granted := by
    simpa [system, courierReady, line.open_] using steps.ready
  have made : (system setup).step s.now s.shared n (.courier m (.queued 0)) =
      { shared := { s.shared with line := s.shared.line.occupy n ⟨m, 0, some n⟩ }
        next := some (.courier m (.awaiting 0)) } := by
    simp [system, courierStep, line.open_]
  have shared := steps.shared.trans (congrArg Turn.shared made)
  exact ⟨.onLine, ⟨layout.tasks_of_item steps made [] (.refl _) (.refl _),
    shared ▸ ⟨ids, line.occupy granted _, held, replies, outstanding, permits, withinClock⟩⟩, shared ▸ .occupies⟩

theorem step_dispatching {phase : Dispatch.Phase}
    (layout : Layout setup.limit s (⟨id, m, .dispatching n phase⟩ :: others) r)
    (steps : Schedule.Steps (system setup) s t n (.worker { dispatch := ⟨m, phase⟩, replyTo := some id }) rest)
    (fine : (Stage.dispatching n phase).Fine setup.consumer s.now m s.shared.desk) :
    Advances setup s t ⟨id, m, .dispatching n phase⟩ others r := by
  obtain ⟨ids, line, held, replies, outstanding, permits, withinClock⟩ := layout.exchange
  obtain ⟨going, within, ends⟩ := fine
  have dispatch : (Dispatch.step setup.consumer s.now s.shared.desk ⟨m, phase⟩).2 =
      ⟨m, (Dispatch.step setup.consumer s.now s.shared.desk ⟨m, phase⟩).2.phase⟩ := by
    have same : (Dispatch.step setup.consumer s.now s.shared.desk ⟨m, phase⟩).2.message = m :=
      Dispatch.message_step ..
    generalize (Dispatch.step setup.consumer s.now s.shared.desk ⟨m, phase⟩).2 = d at same
    rw [← same]
  have stepped := workerStep_dispatching s.shared id (d := ⟨m, phase⟩) going within
  rw [dispatch] at stepped
  generalize (Dispatch.step setup.consumer s.now s.shared.desk ⟨m, phase⟩).2.phase = next
    at dispatch stepped within ends
  have made : (system setup).step s.now s.shared n (.worker { dispatch := ⟨m, phase⟩, replyTo := some id }) =
      { shared := { s.shared with desk := (Dispatch.step setup.consumer s.now s.shared.desk ⟨m, phase⟩).1 }
        next := some (.worker (workerOf id ⟨m, next⟩)) } := by
    simp [system, stepped]
  have shared := steps.shared.trans (congrArg Turn.shared made)
  have tasks : (Item.tasks ⟨id, m, .ofPhase n next⟩).Perm
      [(n, .worker (workerOf id ⟨m, next⟩)), (id, .courier m (.awaiting 0))] := by
    cases next with
    | done result =>
      obtain rfl := ends result rfl
      exact .swap ..
    | _ => exact .swap ..
  have census : Shows setup.limit
      { s.shared with desk := (Dispatch.step setup.consumer s.now s.shared.desk ⟨m, phase⟩).1 }
      (⟨id, m, .ofPhase n next⟩ :: others) r := by
    cases next <;> exact ⟨ids, line, held, replies, outstanding, permits, withinClock⟩
  refine ⟨.ofPhase n next, ⟨layout.tasks_of_item steps made _ (.swap ..) tasks, shared ▸ census⟩, ?_⟩
  rw [shared]
  exact .dispatched steps.ready (Prod.ext rfl dispatch)

theorem step_settling (layout : Layout setup.limit s (⟨id, m, .settling n⟩ :: others) r)
    (steps : Schedule.Steps (system setup) s t n
      (.worker { dispatch := ⟨m, .done landed⟩, phase := .settling landed, replyTo := some id }) rest) :
    Advances setup s t ⟨id, m, .settling n⟩ others r := by
  obtain ⟨ids, line, held, replies, outstanding, permits, withinClock⟩ := layout.exchange
  have made : (system setup).step s.now s.shared n
      (.worker { dispatch := ⟨m, .done landed⟩, phase := .settling landed, replyTo := some id }) =
      { shared := { s.shared with replies := s.shared.replies ++ [⟨id, .ack, s.now⟩] }
        next := some (.worker { dispatch := ⟨m, .done landed⟩, phase := .releasing, replyTo := some id }) } := rfl
  have shared := steps.shared.trans (congrArg Turn.shared made)
  have answers : ((s.shared.replies ++ [Reply.mk id .ack s.now]).map Reply.answer).Perm
      ((⟨id, m, .returning .told (some n)⟩ :: others).filterMap Item.reply?) := by
    rw [List.map_append]
    exact (List.perm_append_singleton ..).trans (replies.cons _)
  exact ⟨.returning .told (some n), ⟨layout.tasks_of_item steps made _ (.swap ..) (.swap ..),
    shared ▸ ⟨ids, line, held, answers, outstanding, permits, withinClock⟩⟩, shared ▸ .reported⟩

theorem step_told {w : Option Nat} (layout : Layout setup.limit s (⟨n, m, .returning .told w⟩ :: others) r)
    (steps : Schedule.Steps (system setup) s t n (.courier m (.awaiting 0)) rest) :
    Advances setup s t ⟨n, m, .returning .told w⟩ others r := by
  obtain ⟨ids, line, held, replies, outstanding, permits, withinClock⟩ := layout.exchange
  have ready : s.shared.replies.any (·.recipient == n) = true := steps.ready
  obtain ⟨reply, found⟩ := Option.isSome_iff_exists.1 (List.find?_isSome.2 (List.any_eq_true.1 ready))
  obtain ⟨own, before, after, split, earlier⟩ := List.find?_eq_some_iff_append.1 found
  have named : reply.recipient = n := beq_iff_eq.1 own
  have good : reply.verdict = .ack := by
    have among := replies.mem_iff.1 (List.mem_map_of_mem (List.mem_of_find?_eq_some found))
    obtain ⟨other, -, same⟩ := List.mem_filterMap.1 among
    exact (eq_of_reply? same).2.1
  have made : (system setup).step s.now s.shared n (.courier m (.awaiting 0)) =
      { shared := { s.shared with replies := s.shared.replies.eraseP (·.recipient == n) }
        next := some (.courier m .leaving) } := by
    simp [system, courierStep, takeReply?, found, good]
  have shared := steps.shared.trans (congrArg Turn.shared made)
  have answers : ((s.shared.replies.eraseP (·.recipient == n)).map Reply.answer).Perm
      ((⟨n, m, .returning .leaving w⟩ :: others).filterMap Item.reply?) := by
    have erased : (reply :: after).eraseP (·.recipient == n) = after := by simp [named]
    rw [split, List.eraseP_append_right _ (by simpa using earlier), erased]
    rw [split] at replies
    have first := (List.perm_middle.map Reply.answer).symm.trans replies
    rw [List.map_cons, Reply.answer, named, good] at first
    exact first.cons_inv
  exact ⟨.returning .leaving w, ⟨layout.tasks_of_item steps made _ (.refl _) (.refl _),
    shared ▸ ⟨ids, line, held, answers, outstanding, permits, withinClock⟩⟩, shared ▸ .acknowledged⟩

theorem step_leaving {w : Option Nat} (layout : Layout setup.limit s (⟨n, m, .returning .leaving w⟩ :: others) r)
    (steps : Schedule.Steps (system setup) s t n (.courier m .leaving) rest) :
    Advances setup s t ⟨n, m, .returning .leaving w⟩ others r := by
  obtain ⟨ids, line, held, replies, outstanding, permits, withinClock⟩ := layout.exchange
  have made : (system setup).step s.now s.shared n (.courier m .leaving) =
      { shared := { s.shared with outstanding := s.shared.outstanding - 1 }, next := none } := rfl
  have shared := steps.shared.trans (congrArg Turn.shared made)
  have fewer : s.shared.outstanding - 1 = (⟨n, m, .returning .gone w⟩ :: others).countP Item.hasCourier := by
    rw [outstanding, List.countP_cons_of_pos rfl, List.countP_cons_of_neg (by simp [Item.hasCourier])]
    rfl
  exact ⟨.returning .gone w, ⟨layout.tasks_of_item steps made _ (.refl _) (.refl _),
    shared ▸ ⟨ids, line, held, replies, fewer, permits, withinClock⟩⟩, shared ▸ .left⟩

theorem step_releasing {courier : Return}
    (layout : Layout setup.limit s (⟨id, m, .returning courier (some n)⟩ :: others) r)
    (steps : Schedule.Steps (system setup) s t n
      (.worker { dispatch := ⟨m, .done landed⟩, phase := .releasing, replyTo := some id }) rest) :
    Advances setup s t ⟨id, m, .returning courier (some n)⟩ others r := by
  obtain ⟨ids, line, held, replies, outstanding, permits, withinClock⟩ := layout.exchange
  have made : (system setup).step s.now s.shared n
      (.worker { dispatch := ⟨m, .done landed⟩, phase := .releasing, replyTo := some id }) =
      { shared := { s.shared with permits := s.shared.permits + 1 }, next := none } := rfl
  have shared := steps.shared.trans (congrArg Turn.shared made)
  have back : s.shared.permits + 1 + (⟨id, m, .returning courier none⟩ :: others).countP Item.hasWorker =
      setup.limit := by
    rw [List.countP_cons_of_pos (by rfl)] at permits
    rw [List.countP_cons_of_neg (by simp [Item.hasWorker])]
    omega
  have own : (Item.tasks ⟨id, m, .returning courier (some n)⟩).Perm ((n, _) :: Item.returning ⟨id, m, _⟩ courier) :=
    List.perm_append_singleton ..
  refine ⟨.returning courier none, ⟨layout.tasks_of_item steps made _ own ?_, shared ▸ ?_⟩, shared ▸ .released⟩
  · exact .of_eq (List.append_nil _)
  · cases courier <;> exact ⟨ids, line, held, replies, outstanding, back, withinClock⟩

theorem step_item (layout : Layout setup.limit s (item :: others) r)
    (steps : Schedule.Steps (system setup) s t n job rest) (own : (n, job) ∈ item.tasks)
    (attempts : 0 < setup.retry.maxAttempts)
    (fine : item.stage.Fine setup.consumer s.now item.message s.shared.desk) :
    Advances setup s t item others r := by
  obtain ⟨id, m, stage⟩ := item
  -- a courier that awaits its verdict can go on only once it is there
  have waits (job_eq : (n, job) = (id, .courier m (.awaiting 0))) : ∃ w, stage = .returning .told w := by
    obtain ⟨rfl, rfl⟩ := Prod.mk.inj job_eq
    exact layout.exchange.answered steps.ready
  cases stage with
  | setOut =>
    obtain ⟨rfl, rfl⟩ := Prod.mk.inj (List.mem_singleton.1 own)
    exact layout.step_setOut steps attempts
  | offering =>
    obtain ⟨rfl, rfl⟩ := Prod.mk.inj (List.mem_singleton.1 own)
    exact layout.step_offering steps
  | queued =>
    obtain ⟨rfl, rfl⟩ := Prod.mk.inj (List.mem_singleton.1 own)
    exact layout.step_queued steps
  | onLine =>
    obtain ⟨w, answered⟩ := waits (List.mem_singleton.1 own)
    cases answered
  | held =>
    obtain ⟨w, answered⟩ := waits (List.mem_singleton.1 own)
    cases answered
  | dispatching k phase =>
    rcases List.mem_pair.1 own with same | same
    · obtain ⟨w, answered⟩ := waits same
      cases answered
    · obtain ⟨rfl, rfl⟩ := Prod.mk.inj same
      exact layout.step_dispatching steps fine
  | settling k =>
    rcases List.mem_pair.1 own with same | same
    · obtain ⟨w, answered⟩ := waits same
      cases answered
    · obtain ⟨rfl, rfl⟩ := Prod.mk.inj same
      exact layout.step_settling steps
  | returning courier w =>
    rcases List.mem_append.1 own with same | releasing
    · cases courier with
      | told =>
        obtain ⟨rfl, rfl⟩ := Prod.mk.inj (List.mem_singleton.1 same)
        exact layout.step_told steps
      | leaving =>
        obtain ⟨rfl, rfl⟩ := Prod.mk.inj (List.mem_singleton.1 same)
        exact layout.step_leaving steps
      | gone => cases same
    · cases w with
      | none => cases releasing
      | some k =>
        obtain ⟨rfl, rfl⟩ := Prod.mk.inj (List.mem_singleton.1 releasing)
        exact layout.step_releasing steps

/-- A step of any task takes one message one stage on. -/
theorem advances (layout : Layout setup.limit s items r) (going : r ≠ .draining)
    (steps : Schedule.Steps (system setup) s t n job rest) (attempts : 0 < setup.retry.maxAttempts)
    (fine : ∀ item ∈ items, item.stage.Fine setup.consumer s.now item.message s.shared.desk) :
    ∃ item others r', items.Perm (item :: others) ∧ r' ≠ .draining ∧ Advances setup s t item others r' := by
  rcases layout.source steps.mem_tasks with ⟨rfl, rfl⟩ | ⟨item, others, split, own⟩
  · cases r with
    | receiving =>
      obtain ⟨item, others, split, advances⟩ := layout.step_receiving steps
      exact ⟨item, others, .holding item.delivery, split, by simp, advances⟩
    | holding d =>
      obtain ⟨item, others, split, advances⟩ := layout.step_holding steps
      exact ⟨item, others, .receiving, split, by simp, advances⟩
    | draining => exact absurd rfl going
  · have inside : item ∈ items := split.mem_iff.2 List.mem_cons_self
    exact ⟨item, others, r, split, going, (layout.perm split).step_item steps own attempts (fine item inside)⟩

/-- Only the first record of an entity is reported. -/
theorem reported_eq (layout : Layout limit s items r) (there : (n, job) ∈ s.tasks) {owner : Option Nat}
    {result : DispatchResult} (told : .dispatched owner m result ∈ reported job) : result = landed := by
  rcases layout.source there with ⟨rfl, rfl⟩ | ⟨⟨id, m', stage⟩, others, -, own⟩
  · cases told
  · cases stage with
    | dispatching k phase =>
      rcases List.mem_pair.1 own with same | same <;> obtain ⟨rfl, rfl⟩ := Prod.mk.inj same <;> cases told
    | settling k =>
      rcases List.mem_pair.1 own with same | same <;> obtain ⟨rfl, rfl⟩ := Prod.mk.inj same
      · cases told
      · exact (Incident.dispatched.inj (List.mem_singleton.1 told)).2.2
    | returning courier w =>
      rcases List.mem_append.1 own with same | same
      · cases courier with
        | gone => cases same
        | _ =>
          obtain ⟨rfl, rfl⟩ := Prod.mk.inj (List.mem_singleton.1 same)
          cases told
      · cases w with
        | none => cases same
        | some k =>
          obtain ⟨rfl, rfl⟩ := Prod.mk.inj (List.mem_singleton.1 same)
          cases told
    | _ =>
      obtain ⟨rfl, rfl⟩ := Prod.mk.inj (List.mem_singleton.1 own)
      cases told

section Idle

variable (layout : Layout setup.limit s items r)
  (blocked : ∀ task ∈ s.tasks, (system setup).ready s.now s.shared task.1 task.2 = false)

include layout blocked

theorem blocked_of_item (inside : item ∈ items) (task : Nat × Job) (own : task ∈ item.tasks) :
    (system setup).ready s.now s.shared task.1 task.2 = false :=
  blocked task (layout.tasks.mem_iff.2 (List.mem_cons_of_mem _ (List.mem_flatMap.2 ⟨_, inside, own⟩)))

/-- There is a permit for every message, so the receiver does not wait for one. -/
theorem receiving_of_blocked (going : r ≠ .draining) (room : items.length ≤ setup.limit) : r = .receiving := by
  have receiver := blocked (0, .receiver r) (layout.tasks.mem_iff.2 List.mem_cons_self)
  cases r with
  | receiving => rfl
  | draining => exact absurd rfl going
  | holding d =>
    have taken : s.shared.permits = 0 := by simpa [system, receiverReady] using receiver
    have among : d ∈ items.filterMap Item.held? := layout.exchange.held.mem_iff.2 (List.mem_singleton_self d)
    obtain ⟨item, inside, same⟩ := List.mem_filterMap.1 among
    have without : item.hasWorker ≠ true := by
      unfold Item.held? at same
      unfold Item.hasWorker
      split at same
      · rename_i stage
        simp [stage]
      · cases same
    have fewer : items.countP Item.hasWorker < items.length := by
      refine Nat.lt_of_le_of_ne List.countP_le_length fun all => ?_
      exact without (List.countP_eq_length.1 all item inside)
    have permits := layout.exchange.permits
    omega

/-- Whoever has been given room puts its message there. -/
theorem granted_of_blocked : s.shared.line.granted = [] := by
  apply List.eq_nil_iff_forall_not_mem.2
  intro id there
  have among := layout.exchange.line.waiting.mem_iff.1 (List.mem_append_right _ there)
  obtain ⟨⟨k, m, stage⟩, inside, same⟩ := List.mem_filterMap.1 among
  cases stage with
  | queued =>
    obtain rfl := Option.some.inj same
    have task := layout.blocked_of_item blocked inside (k, .courier m (.queued 0)) (List.mem_singleton_self _)
    simp [system, courierReady, there] at task
  | _ => cases same

/-- If nobody can go on, the line is empty, and nobody waits for room on it or for a permit. -/
theorem idle_line (going : r ≠ .draining) (room : items.length ≤ setup.limit) :
    items.filterMap Item.onLine? = [] ∧ items.filterMap Item.held? = [] ∧ items.filterMap Item.queued? = [] := by
  obtain rfl := layout.receiving_of_blocked blocked going room
  have line := layout.exchange.line
  have receiver := blocked (0, .receiver .receiving) (layout.tasks.mem_iff.2 List.mem_cons_self)
  have queue : s.shared.line.queue = [] := by simpa [system, receiverReady, line.goesOn] using receiver
  have granted := layout.granted_of_blocked blocked
  have senders : s.shared.line.senders = [] := by
    apply Classical.byContradiction
    intro some
    have full := line.full some
    rw [queue, granted] at full
    exact absurd full (Nat.not_le.2 line.capacity)
  refine ⟨?_, layout.exchange.held.eq_nil, ?_⟩
  · have same := line.queue
    rw [queue] at same
    exact same.nil_eq.symm
  · have same := line.waiting
    rw [senders, granted] at same
    exact same.nil_eq.symm

/-- If nobody can go on, every message waits in its dispatch, or is done with and its permit is back. -/
theorem idle (going : r ≠ .draining) (room : items.length ≤ setup.limit) (inside : item ∈ items) :
    item.stage = .returning .gone none ∨
      ∃ k phase, item.stage = .dispatching k phase ∧ Dispatch.ready s.now ⟨item.message, phase⟩ = false := by
  obtain ⟨onLine, held, queued⟩ := layout.idle_line blocked going room
  have stuck := layout.blocked_of_item blocked inside
  obtain ⟨id, m, stage⟩ := item
  cases stage with
  | setOut => cases stuck _ (List.mem_singleton_self _)
  | offering => cases stuck _ (List.mem_singleton_self _)
  | queued => cases List.filterMap_eq_nil_iff.1 queued _ inside
  | onLine => cases List.filterMap_eq_nil_iff.1 onLine _ inside
  | held => cases List.filterMap_eq_nil_iff.1 held _ inside
  | dispatching k phase => exact .inr ⟨k, phase, rfl, stuck _ (List.mem_pair.2 (.inr rfl))⟩
  | settling k => cases stuck _ (List.mem_pair.2 (.inr rfl))
  | returning courier w =>
    cases courier with
    | told =>
      have among := layout.exchange.replies.mem_iff.2 (List.mem_filterMap.2 ⟨_, inside, rfl⟩)
      obtain ⟨reply, there, same⟩ := List.mem_map.1 among
      have silent : s.shared.replies.any (·.recipient == id) = false := stuck _ List.mem_cons_self
      have own : reply.recipient = id := congrArg Prod.fst same
      simpa [own] using List.any_eq_false.1 silent reply there
    | leaving => cases stuck _ List.mem_cons_self
    | gone =>
      cases w with
      | none => exact .inl rfl
      | some k => cases stuck _ List.mem_cons_self

end Idle

end Layout

end Exchange

end Replica

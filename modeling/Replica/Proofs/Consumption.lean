import Replica.Proofs.Ledger
import Replica.Proofs.Stages
import Mathlib.Algebra.GroupWithZero.Nat
/-! The receiver at work. It takes deliveries in their order, hands each to a worker of its own as soon as a
permit is free, and finishes once nobody sends any more and all permits are back. Deliveries come from
couriers or from outside, and workers finish in any order. -/
namespace Replica

/-- A worker as it begins with a delivery. -/
def Worker.begin (d : Delivery) : Worker := { dispatch := { message := d.message }, replyTo := d.replyTo }

namespace Exchange

/-- Something that happened to a delivery. A worker is known by its number. -/
inductive Handling where
  /-- A delivery was put on the line. -/
  | queued (d : Delivery)
  /-- A worker began to dispatch it. -/
  | started (worker : Nat) (d : Delivery)
  /-- The worker's dispatch returned. -/
  | returned (worker : Nat) (m : Message) (result : DispatchResult)
  /-- The worker settled its delivery, with these verdicts for those who wait for them. -/
  | settled (worker : Nat) (answers : List (Nat × Verdict))

namespace Handling

def queued? : Handling → Option Delivery
  | queued d => some d
  | _ => none

def started? : Handling → Option Delivery
  | started _ d => some d
  | _ => none

def isStarted : Handling → Bool
  | started .. => true
  | _ => false

def isReturned : Handling → Bool
  | returned .. => true
  | _ => false

/-- The worker that did it. -/
def worker? : Handling → Option Nat
  | queued _ => none
  | started worker _ => some worker
  | returned worker .. => some worker
  | settled worker _ => some worker

/-- All that a worker does with its delivery: one dispatch, and one verdict on what it returned. -/
def whole (worker : Nat) (d : Delivery) (result : DispatchResult) : List Handling :=
  [ started worker d, returned worker d.message result,
    settled worker (d.replyTo.toList.map (·, .ofResult result)) ]

end Handling

/-- What one worker did. -/
def doings (worker : Nat) (log : List Handling) : List Handling :=
  log.filter (·.worker? == some worker)

/-- What a step of a task did to deliveries. A new task gets the number `first`. -/
def handlings (before after : Exchange σ) (first id : Nat) (job : Job) (next : Option Job) :
    List Handling :=
  (after.line.queue.drop before.line.queue.length).map .queued ++
    match job with
    | .receiver (.holding d) => [.started first d]
    | .worker w =>
      match w.phase with
      | .dispatching =>
        match next with
        | some (.worker later) => later.dispatch.result?.toList.map (.returned id w.dispatch.message)
        | _ => []
      | .settling _ => [.settled id ((after.replies.drop before.replies.length).map (·.answer))]
      | .releasing => []
    | _ => []

variable {σ : Type}

/-- A consumer that receives deliveries until nobody sends any more, and all that happened to deliveries so
far. Messages are sent over the bus or deliveries are put on the line from outside, the store changes, and
the tasks make their steps in any order. -/
inductive Consumes (setup : Setup σ) : ExchangeRun σ → List Handling → Prop
  | start (store : σ) (capacity : Nat) :
    Consumes setup ((ExchangeRun.start store (.ofCapacity capacity)).receive setup) []
  | sent {run after : ExchangeRun σ} {m : Message} {log : List Handling}
    (before : Consumes setup run log) (live : run.shared.line.hungUp = false)
    (accepted : run.send m = (.ok (), after)) : Consumes setup after log
  | pushed {run : ExchangeRun σ} {log : List Handling} (before : Consumes setup run log)
    (live : run.shared.line.hungUp = false) (d : Delivery) :
    Consumes setup (run.push setup d) (log ++ [.queued d])
  /-- The store is changed from outside, or told to fail. -/
  | changed {run : ExchangeRun σ} {log : List Handling} (before : Consumes setup run log) (f : σ → σ) :
    Consumes setup (run.changeStore setup f) log
  /-- Nobody sends any more, and no message is under way. -/
  | hungUp {run : ExchangeRun σ} {log : List Handling} (before : Consumes setup run log)
    (nobody : run.tasks.countP (isCourier ·.2) = 0) : Consumes setup (run.hangUp setup) log
  /-- Time passes. -/
  | passed {run after : ExchangeRun σ} {log : List Handling} (before : Consumes setup run log)
    (later : run.now ≤ after.now) (shared : after.shared = run.shared)
    (nextId : after.nextId = run.nextId) (tasks : after.tasks.Perm run.tasks) :
    Consumes setup after log
  /-- A task that can go on makes a step. -/
  | stepped {run after : ExchangeRun σ} {log : List Handling} {id : Nat} {job : Job}
    {rest : List (Nat × Job)} (before : Consumes setup run log)
    (among : run.tasks.Perm ((id, job) :: rest))
    (ready : (system setup).ready run.now run.shared id job = true) (now : after.now = run.now)
    (shared : after.shared = ((system setup).step run.now run.shared id job).shared)
    (nextId : after.nextId =
      run.nextId + ((system setup).step run.now run.shared id job).spawned.length)
    (tasks : after.tasks.Perm
      (((system setup).step run.now run.shared id job).next.toList.map (id, ·) ++ rest ++
        ((system setup).step run.now run.shared id job).spawned.mapIdx
          fun i task => (run.nextId + i, task))) :
    Consumes setup after (log ++
      handlings run.shared after.shared run.nextId id job
        ((system setup).step run.now run.shared id job).next)

/-! ### What one worker does -/

/-- The worker was started for this delivery. -/
structure Carries (w : Worker) (d : Delivery) : Prop where
  label : w.label = none
  message : w.dispatch.message = d.message
  replyTo : w.replyTo = d.replyTo

/-- How far a worker can be, with what it did until then. -/
inductive Career (n : Nat) : List Worker → List Handling → Prop
  | unborn : Career n [] []
  | dispatching {w : Worker} {d : Delivery} (carries : Carries w d) (phase : w.phase = .dispatching)
    (going : w.dispatch.result? = none) : Career n [w] [.started n d]
  | settling {w : Worker} {d : Delivery} {result : DispatchResult} (carries : Carries w d)
    (phase : w.phase = .settling result) :
    Career n [w] [.started n d, .returned n d.message result]
  | releasing {w : Worker} {d : Delivery} {result : DispatchResult} (phase : w.phase = .releasing) :
    Career n [w] (Handling.whole n d result)
  | gone {d : Delivery} {result : DispatchResult} : Career n [] (Handling.whole n d result)

theorem Career.isPrefix_doings {n : Nat} {ws : List Worker} {es : List Handling} (career : Career n ws es) :
    es = [] ∨ ∃ d result, es ≠ [] ∧ es <+: Handling.whole n d result := by
  cases career with
  | unborn => exact .inl rfl
  | @dispatching w d => exact .inr ⟨d, .ok .filtered, by simp, _, rfl⟩
  | @settling w d result => exact .inr ⟨d, result, by simp, _, rfl⟩
  | @releasing w d result => exact .inr ⟨d, result, by simp [Handling.whole], List.prefix_refl _⟩
  | @gone d result => exact .inr ⟨d, result, by simp [Handling.whole], List.prefix_refl _⟩

/-- A worker settles its delivery last. -/
theorem Career.eq_whole_of_settled {n : Nat} {ws : List Worker} {es : List Handling}
    {answers : List (Nat × Verdict)} (career : Career n ws es) (settled : .settled n answers ∈ es) :
    ∃ d result, es = Handling.whole n d result := by
  cases career with
  | unborn => cases settled
  | dispatching => simp at settled
  | settling => simp at settled
  | @releasing w d result => exact ⟨d, result, rfl⟩
  | @gone d result => exact ⟨d, result, rfl⟩

def worker? (n : Nat) : Nat × Job → Option Worker
  | (id, .worker w) => if id = n then some w else none
  | _ => none

def receiver? : Nat × Job → Option Receiver
  | (_, .receiver r) => some r
  | _ => none

/-- Workers hold a permit each. -/
def isWorker : Job → Bool
  | .worker _ => true
  | _ => false

def isDispatching : Job → Bool
  | .worker w =>
    match w.phase with
    | .dispatching => true
    | _ => false
  | _ => false

/-- Where the deliveries are that no worker has yet, and what the receiver has seen of the line. -/
structure Receiving (x : Exchange σ) (receivers : List Receiver) (workers : Nat) (log : List Handling) :
    Prop where
  single : receivers.length ≤ 1
  order : log.filterMap Handling.queued? =
    log.filterMap Handling.started? ++ receivers.flatMap Receiver.held ++ x.line.queue
  /-- The receiver stops taking deliveries only when there will be none any more. -/
  drained : (∀ r ∈ receivers, r = .draining) → x.line.hungUp = true ∧ x.line.queue = []
  /-- It finishes only when all permits are back. -/
  ended : receivers = [] → workers = 0
  receiverEnd : x.receiverEnd.isSome = receivers.isEmpty

/-- What is so at every moment while a consumer receives deliveries. -/
structure Consuming (setup : Setup σ) (run : ExchangeRun σ) (log : List Handling) : Prop where
  numbered : run.Numbered
  open_ : run.shared.line.closed = false
  careers : ∀ n, Career n (run.tasks.filterMap (worker? n)) (doings n log)
  fresh : ∀ n, run.nextId ≤ n → doings n log = []
  permits : run.shared.permits + run.tasks.countP (isWorker ·.2) = setup.limit
  inProgress : log.countP (·.isStarted) = log.countP (·.isReturned) + run.tasks.countP (isDispatching ·.2)
  senders : run.shared.line.hungUp = true → run.tasks.countP (isCourier ·.2) = 0
  receiving : Receiving run.shared (run.tasks.filterMap receiver?) (run.tasks.countP (isWorker ·.2)) log

section Steps

variable {setup : Setup σ} {run after : ExchangeRun σ} {log : List Handling}

theorem consuming_start (store : σ) (capacity : Nat) :
    Consuming setup ((ExchangeRun.start store (.ofCapacity capacity)).receive setup) [] where
  numbered := (Schedule.Numbered.mk (by simp [Schedule.tasks, ExchangeRun.start])
    (by simp [Schedule.tasks, ExchangeRun.start])).spawn _
  open_ := rfl
  careers _ := .unborn
  fresh _ _ := rfl
  permits := rfl
  inProgress := rfl
  senders hungUp := by cases hungUp
  receiving :=
    { single := Nat.le_refl _
      order := rfl
      drained := fun all => absurd (all .receiving (List.mem_singleton_self _)) (by simp)
      ended := fun none_ => by cases none_
      receiverEnd := rfl }

theorem doings_append (n : Nat) (first second : List Handling) :
    doings n (first ++ second) = doings n first ++ doings n second :=
  List.filter_append ..

theorem doings_of_queued (n : Nat) (new : List Delivery) : doings n (new.map .queued) = [] := by
  simp [doings, Handling.worker?]

theorem eq_of_perm_of_single {α : Type} {l l' : List α} (same : l.Perm l') (single : l'.length ≤ 1) :
    l = l' := by
  match l' with
  | [] => exact same.eq_nil
  | [a] => exact List.perm_singleton.1 same

theorem Career.single {n : Nat} {ws : List Worker} {es : List Handling} (career : Career n ws es) :
    ws.length ≤ 1 := by
  cases career <;> simp

theorem Career.perm {n : Nat} {ws ws' : List Worker} {es : List Handling} (career : Career n ws es)
    (same : ws'.Perm ws) : Career n ws' es := by
  rwa [eq_of_perm_of_single same career.single]

section Workers

variable {tasks tasks' : List (Nat × Job)}
  (workers : (tasks'.filter (isWorker ·.2)).Perm (tasks.filter (isWorker ·.2)))

include workers

theorem filterMap_worker?_perm (n : Nat) :
    (tasks'.filterMap (worker? n)).Perm (tasks.filterMap (worker? n)) := by
  have all (l : List (Nat × Job)) :
      (l.filter (isWorker ·.2)).filterMap (worker? n) = l.filterMap (worker? n) := by
    rw [List.filterMap_filter]
    refine List.filterMap_congr fun task _ => ?_
    obtain ⟨id, job⟩ := task
    cases job <;> rfl
  simpa only [all] using workers.filterMap (worker? n)

theorem countP_isDispatching_eq :
    tasks'.countP (isDispatching ·.2) = tasks.countP (isDispatching ·.2) := by
  have all (l : List (Nat × Job)) :
      (l.filter (isWorker ·.2)).countP (isDispatching ·.2) = l.countP (isDispatching ·.2) := by
    rw [List.countP_filter]
    refine List.countP_congr fun task _ => ?_
    obtain ⟨id, job⟩ := task
    cases job <;> simp [isDispatching, isWorker]
  simpa only [all] using workers.countP_eq (isDispatching ·.2)

theorem countP_isWorker_eq : tasks'.countP (isWorker ·.2) = tasks.countP (isWorker ·.2) := by
  simpa only [List.countP_eq_length_filter] using workers.length_eq

end Workers

/-- Whatever leaves workers and permits alone, and at most puts deliveries on the line. -/
theorem Consuming.aside (consuming : Consuming setup run log) (numbered : after.Numbered)
    (workers : (after.tasks.filter (isWorker ·.2)).Perm (run.tasks.filter (isWorker ·.2)))
    (nextId : run.nextId ≤ after.nextId) (new : List Delivery) (open_ : after.shared.line.closed = false)
    (permits : after.shared.permits = run.shared.permits)
    (senders : after.shared.line.hungUp = true → after.tasks.countP (isCourier ·.2) = 0)
    (receiving : Receiving after.shared (after.tasks.filterMap receiver?)
      (run.tasks.countP (isWorker ·.2)) (log ++ new.map .queued)) :
    Consuming setup after (log ++ new.map .queued) where
  numbered := numbered
  open_ := open_
  careers n := by
    rw [doings_append, doings_of_queued, List.append_nil]
    exact (consuming.careers n).perm (filterMap_worker?_perm workers n)
  fresh n late := by
    rw [doings_append, doings_of_queued, List.append_nil]
    exact consuming.fresh n (Nat.le_trans nextId late)
  permits := by rw [permits, countP_isWorker_eq workers, consuming.permits]
  inProgress := by
    have none_ (p : Handling → Bool) (quiet : ∀ d, p (.queued d) = false) :
        (new.map Handling.queued).countP p = 0 :=
      List.countP_eq_zero.2 (by simpa using fun d _ => quiet d)
    rw [List.countP_append, List.countP_append, none_ _ fun _ => rfl, none_ _ fun _ => rfl,
      countP_isDispatching_eq workers]
    exact consuming.inProgress
  senders := senders
  receiving := by
    rw [countP_isWorker_eq workers]
    exact receiving

/-- Deliveries are put on the line behind all others. -/
theorem Receiving.push {x y : Exchange σ} {receivers receivers' : List Receiver} {workers : Nat}
    (receiving : Receiving x receivers workers log) (same : receivers'.Perm receivers) (new : List Delivery)
    (queue : y.line.queue = x.line.queue ++ new)
    (live : x.line.hungUp = true → y.line.hungUp = true ∧ new = [])
    (receiverEnd : y.receiverEnd = x.receiverEnd) :
    Receiving y receivers' workers (log ++ new.map .queued) := by
  obtain rfl := eq_of_perm_of_single same receiving.single
  refine ⟨receiving.single, ?_, fun all => ?_, receiving.ended, receiverEnd ▸ receiving.receiverEnd⟩
  · have deliveries : (new.map Handling.queued).filterMap Handling.queued? = new := by
      have all : Handling.queued? ∘ Handling.queued = some := rfl
      rw [List.filterMap_map, all, List.filterMap_some]
    have none_ : (new.map Handling.queued).filterMap Handling.started? = [] := by
      simp [Handling.started?]
    rw [List.filterMap_append, List.filterMap_append, deliveries, none_, queue, receiving.order]
    simp
  · obtain ⟨hungUp, empty⟩ := receiving.drained all
    obtain ⟨still, none_⟩ := live hungUp
    exact ⟨still, by rw [queue, empty, none_]; rfl⟩

/-- What a courier's step leaves of what the receiver looks at. -/
theorem courierStep_line (retry : Retry) (now : Instant) (x : Exchange σ) (id : Nat) (m : Message)
    (phase : Courier.Phase) {y : Exchange σ} (made : y = (courierStep retry now x id m phase).1) :
    y.line.closed = x.line.closed ∧ y.line.hungUp = x.line.hungUp ∧ y.permits = x.permits ∧
      y.receiverEnd = x.receiverEnd ∧
      y.line.queue = x.line.queue ++ y.line.queue.drop x.line.queue.length := by
  subst made
  cases phase with
  | awaiting n =>
    simp only [courierStep, takeReply?]
    cases x.replies.find? (·.recipient == id) with
    | none => simp
    | some reply =>
      cases verdict : reply.verdict <;> simp [verdict]
  | attempt n =>
    simp only [courierStep]
    split <;> simp
  | offering n =>
    simp only [courierStep]
    split
    · simp
    · split <;> simp [Line.push, Line.enlist]
  | queued n =>
    simp only [courierStep]
    split <;> simp [Line.occupy]
  | _ => simp [courierStep, Desk.shelve]

/-- A courier's step puts at most one delivery on the line. -/
theorem Consuming.courier (consuming : Consuming setup run log) (numbered : after.Numbered) {id : Nat}
    {m : Message} {phase : Courier.Phase} {rest : List (Nat × Job)} {next : Option Courier.Phase}
    (among : run.tasks.Perm ((id, .courier m phase) :: rest)) (nextId : run.nextId ≤ after.nextId)
    (shared : after.shared = (courierStep setup.retry run.now run.shared id m phase).1)
    (tasks : after.tasks.Perm ((next.map (.courier m)).toList.map (id, ·) ++ rest)) :
    Consuming setup after (log ++
      (after.shared.line.queue.drop run.shared.line.queue.length).map .queued) := by
  have live : run.shared.line.hungUp = false := by
    cases hungUp : run.shared.line.hungUp with
    | false => rfl
    | true =>
      have none_ := consuming.senders hungUp
      rw [among.countP_eq] at none_
      simp [isCourier] at none_
  obtain ⟨closed, hungUp, permits, receiverEnd, queue⟩ := courierStep_line _ _ _ _ _ _ shared
  refine consuming.aside numbered ?_ nextId _ (closed.trans consuming.open_) permits ?_
    (consuming.receiving.push ?_ _ queue ?_ receiverEnd)
  · refine (tasks.filter _).trans (.trans ?_ (among.filter _).symm)
    cases next <;> simp [isWorker]
  · simp [hungUp, live]
  · refine (tasks.filterMap _).trans (.trans ?_ (among.filterMap _).symm)
    cases next <;> simp [receiver?, List.filterMap_cons]
  · simp [live]

/-- What is done from outside leaves the tasks there are alone, and at most puts deliveries on the line or
hangs up. -/
theorem Consuming.outside (consuming : Consuming setup run log) (numbered : after.Numbered)
    (extra : List (Nat × Job)) (couriers : ∀ task ∈ extra, isCourier task.2 = true)
    (tasks : after.tasks.Perm (run.tasks ++ extra)) (nextId : run.nextId ≤ after.nextId)
    (new : List Delivery) (closed : after.shared.line.closed = run.shared.line.closed)
    (queue : after.shared.line.queue = run.shared.line.queue ++ new)
    (live : run.shared.line.hungUp = true → after.shared.line.hungUp = true ∧ new = [])
    (senders : after.shared.line.hungUp = true → after.tasks.countP (isCourier ·.2) = 0)
    (permits : after.shared.permits = run.shared.permits)
    (receiverEnd : after.shared.receiverEnd = run.shared.receiverEnd) :
    Consuming setup after (log ++ new.map .queued) := by
  refine consuming.aside numbered ?_ nextId new (closed.trans consuming.open_) permits senders
    (consuming.receiving.push ?_ new queue live receiverEnd)
  · have none_ : extra.filter (isWorker ·.2) = [] := by
      refine List.filter_eq_nil_iff.2 fun task there => ?_
      have courier := couriers task there
      obtain ⟨id, job⟩ := task
      cases job <;> simp_all [isCourier, isWorker]
    refine (tasks.filter _).trans ?_
    rw [List.filter_append, none_, List.append_nil]
  · have none_ : extra.filterMap receiver? = [] := by
      refine List.filterMap_eq_nil_iff.2 fun task there => ?_
      have courier := couriers task there
      obtain ⟨id, job⟩ := task
      cases job <;> simp_all [isCourier, receiver?]
    refine (tasks.filterMap _).trans ?_
    rw [List.filterMap_append, none_, List.append_nil]

/-- The only receiver is the one that makes its step. -/
theorem Consuming.eq_receiver (consuming : Consuming setup run log) {id : Nat} {r : Receiver}
    {rest : List (Nat × Job)} (among : run.tasks.Perm ((id, .receiver r) :: rest)) :
    run.tasks.filterMap receiver? = [r] ∧ rest.filterMap receiver? = [] := by
  have receivers : (run.tasks.filterMap receiver?).Perm (r :: rest.filterMap receiver?) :=
    among.filterMap receiver?
  have one := receivers.length_eq
  have single := consuming.receiving.single
  have others : rest.filterMap receiver? = [] :=
    List.eq_nil_of_length_eq_zero (by rw [List.length_cons] at one; omega)
  rw [others] at receivers
  exact ⟨List.perm_singleton.1 receivers, others⟩

/-- A step of the receiver that hands out no delivery: it takes one, or stops taking any, or finishes. -/
theorem Consuming.receiver (next : Option Receiver) (consuming : Consuming setup run log)
    (numbered : after.Numbered) {id : Nat} {r : Receiver} {rest : List (Nat × Job)}
    (among : run.tasks.Perm ((id, .receiver r) :: rest))
    (tasks : after.tasks.Perm ((next.map .receiver).toList.map (id, ·) ++ rest))
    (nextId : run.nextId ≤ after.nextId) (closed : after.shared.line.closed = run.shared.line.closed)
    (hungUp : after.shared.line.hungUp = run.shared.line.hungUp)
    (permits : after.shared.permits = run.shared.permits)
    (receiving : run.tasks.filterMap receiver? = [r] →
      Receiving after.shared next.toList (run.tasks.countP (isWorker ·.2)) log) :
    Consuming setup after log := by
  obtain ⟨alone, others⟩ := consuming.eq_receiver among
  have receivers : (after.tasks.filterMap receiver?).Perm next.toList := by
    refine (tasks.filterMap _).trans ?_
    rw [List.filterMap_append, others]
    cases next <;> simp [receiver?]
  have single : next.toList.length ≤ 1 := by cases next <;> simp
  have same : log ++ ([] : List Delivery).map .queued = log := List.append_nil _
  rw [← same]
  refine consuming.aside numbered ?_ nextId [] (closed.trans consuming.open_) permits ?_ ?_
  · refine (tasks.filter _).trans (.trans ?_ (among.filter _).symm)
    cases next <;> simp [isWorker]
  · intro ended
    have none_ := consuming.senders (hungUp ▸ ended)
    rw [among.countP_eq] at none_
    rw [tasks.countP_eq]
    cases next <;> simpa [isCourier] using none_
  · rw [eq_of_perm_of_single receivers single, same]
    exact receiving alone

/-- A new worker begins its career under a number that nobody had before. -/
theorem Consuming.career_begun (consuming : Consuming setup run log) (d : Delivery) (n : Nat) :
    Career n (run.tasks.filterMap (worker? n) ++ (worker? n (run.nextId, .worker (.begin d))).toList)
      (doings n (log ++ [.started run.nextId d])) := by
  have career := consuming.careers n
  rw [doings_append]
  by_cases own : run.nextId = n
  · subst own
    rw [consuming.fresh _ (Nat.le_refl _)] at career ⊢
    generalize run.tasks.filterMap (worker? run.nextId) = ws at career
    cases career
    have only : doings run.nextId [.started run.nextId d] = [.started run.nextId d] := by
      simp [doings, Handling.worker?]
    simpa [only, worker?] using Career.dispatching (n := run.nextId) (w := .begin d)
      ⟨rfl, rfl, rfl⟩ rfl rfl
  · have none_ : doings n [.started run.nextId d] = [] := by simp [doings, Handling.worker?, own]
    simpa [worker?, own, none_] using career

/-- The receiver hands its delivery to a new worker. -/
theorem Consuming.handed (consuming : Consuming setup run log) (numbered : after.Numbered) {id : Nat}
    {d : Delivery} {rest : List (Nat × Job)} (among : run.tasks.Perm ((id, .receiver (.holding d)) :: rest))
    (free : 0 < run.shared.permits) (nextId : after.nextId = run.nextId + 1)
    (shared : after.shared = { run.shared with permits := run.shared.permits - 1 })
    (tasks : after.tasks.Perm
      ([(id, .receiver .receiving)] ++ rest ++ [(run.nextId, .worker (.begin d))])) :
    Consuming setup after (log ++ [.started run.nextId d]) := by
  obtain ⟨alone, others⟩ := consuming.eq_receiver among
  have receiving := consuming.receiving
  rw [alone] at receiving
  have receivers : after.tasks.filterMap receiver? = [.receiving] := by
    refine List.perm_singleton.1 ((tasks.filterMap _).trans ?_)
    simp [others, receiver?, List.filterMap_cons]
  have count (p : Job → Bool) (idle : ∀ r, p (.receiver r) = false) :
      after.tasks.countP (p ·.2) = run.tasks.countP (p ·.2) + (p (.worker (.begin d))).toNat := by
    rw [tasks.countP_eq, among.countP_eq]
    cases new : p (.worker (.begin d)) <;> simp [idle, new]
  constructor
  · exact numbered
  · rw [shared]
    exact consuming.open_
  · intro n
    refine (consuming.career_begun d n).perm ((tasks.filterMap _).trans ?_)
    rw [List.filterMap_append]
    refine .append (.trans ?_ (among.filterMap _).symm) ?_
    · simp [worker?, List.filterMap_cons]
    · cases named : worker? n (run.nextId, .worker (.begin d)) <;> simp [named]
  · intro n late
    rw [nextId] at late
    rw [doings_append, consuming.fresh n (by omega)]
    have other : run.nextId ≠ n := by omega
    simp [doings, Handling.worker?, other]
  · have balance := consuming.permits
    rw [shared, count isWorker fun _ => rfl]
    have new : (isWorker (.worker (.begin d))).toNat = 1 := rfl
    dsimp only
    omega
  · rw [count isDispatching fun _ => rfl, List.countP_append, List.countP_append, consuming.inProgress]
    simp [isDispatching, Handling.isStarted, Handling.isReturned, Worker.begin]
    omega
  · rw [shared, count isCourier fun _ => rfl]
    exact consuming.senders
  · rw [receivers, shared]
    refine ⟨Nat.le_refl _, ?_, fun all => ?_, fun none_ => absurd none_ (by simp),
      receiving.receiverEnd⟩
    · rw [List.filterMap_append, List.filterMap_append, receiving.order]
      simp [Handling.queued?, Handling.started?, Receiver.held]
    · exact absurd (all _ (List.mem_singleton_self _)) (by simp)

section Worker

variable {id : Nat} {w : Worker} {rest : List (Nat × Job)} {next : Option Worker} {es : List Handling}

theorem Consuming.career_of_worker (consuming : Consuming setup run log)
    (among : run.tasks.Perm ((id, .worker w) :: rest)) :
    Career id [w] (doings id log) ∧ rest.filterMap (worker? id) = [] := by
  have before : (run.tasks.filterMap (worker? id)).Perm (w :: rest.filterMap (worker? id)) := by
    simpa [worker?] using among.filterMap (worker? id)
  have career := (consuming.careers id).perm before.symm
  have alone := career.single
  have others : rest.filterMap (worker? id) = [] :=
    List.eq_nil_of_length_eq_zero (by rw [List.length_cons] at alone; omega)
  rw [others] at career
  exact ⟨career, others⟩

/-- The career of the worker goes on, and no other is touched. -/
theorem Consuming.career_worker (consuming : Consuming setup run log)
    (among : run.tasks.Perm ((id, .worker w) :: rest))
    (tasks : after.tasks.Perm ((next.map .worker).toList.map (id, ·) ++ rest))
    (own : ∀ e ∈ es, e.worker? = some id) (career : Career id next.toList (doings id log ++ es)) (n : Nat) :
    Career n (after.tasks.filterMap (worker? n)) (doings n (log ++ es)) := by
  rw [doings_append]
  by_cases its : id = n
  · subst n
    have all : doings id es = es := List.filter_eq_self.2 fun e there => by simp [own e there]
    rw [all]
    refine career.perm ((tasks.filterMap _).trans ?_)
    rw [List.filterMap_append, (consuming.career_of_worker among).2]
    cases next <;> simp [worker?]
  · have silent : doings n es = [] :=
      List.filter_eq_nil_iff.2 fun e there => by simp [own e there, its]
    rw [silent, List.append_nil]
    refine (consuming.careers n).perm ((tasks.filterMap _).trans (.trans ?_ (among.filterMap _).symm))
    cases next <;> simp [worker?, its]

theorem countP_worker (among : run.tasks.Perm ((id, .worker w) :: rest))
    (tasks : after.tasks.Perm ((next.map .worker).toList.map (id, ·) ++ rest)) (p : Job → Bool) :
    after.tasks.countP (p ·.2) + (p (.worker w)).toNat =
      run.tasks.countP (p ·.2) + (next.any (p <| .worker ·)).toNat := by
  rw [tasks.countP_eq, among.countP_eq, List.countP_append, List.countP_cons]
  cases next with
  | none => cases p (.worker w) <;> simp
  | some later =>
    cases now_ : p (.worker later) <;> cases p (.worker w) <;> simp [now_] <;> omega

/-- A step of a worker: it goes on with its delivery, or is through with it. -/
theorem Consuming.worker (next : Option Worker) (consuming : Consuming setup run log)
    (numbered : after.Numbered) (among : run.tasks.Perm ((id, .worker w) :: rest))
    (tasks : after.tasks.Perm ((next.map .worker).toList.map (id, ·) ++ rest))
    (nextId : after.nextId = run.nextId) (line : after.shared.line = run.shared.line)
    (receiverEnd : after.shared.receiverEnd = run.shared.receiverEnd)
    (permits : after.shared.permits + next.isSome.toNat = run.shared.permits + 1)
    (own : ∀ e ∈ es, e.worker? = some id) (begun : ∀ e ∈ es, e.isStarted = false)
    (progress : (isDispatching (.worker w)).toNat =
      es.countP (·.isReturned) + (next.any (isDispatching <| .worker ·)).toNat)
    (career : Career id next.toList (doings id log ++ es)) : Consuming setup after (log ++ es) := by
  have workers := countP_worker among tasks isWorker
  have same : (next.any (isWorker <| .worker ·)).toNat = next.isSome.toNat := by cases next <;> rfl
  have one : (isWorker (.worker w)).toNat = 1 := rfl
  constructor
  · exact numbered
  · rw [line]
    exact consuming.open_
  · exact consuming.career_worker among tasks own career
  · intro n late
    have less := consuming.numbered.below id (List.mem_map.2 ⟨_, among.mem_iff.2 List.mem_cons_self, rfl⟩)
    have other : id ≠ n := by omega
    have silent : doings n es = [] :=
      List.filter_eq_nil_iff.2 fun e there => by simp [own e there, other]
    rw [doings_append, consuming.fresh n (nextId ▸ late), silent, List.append_nil]
  · have balance := consuming.permits
    omega
  · have none_ : es.countP (·.isStarted) = 0 :=
      List.countP_eq_zero.2 fun e there => by simp [begun e there]
    have going := countP_worker among tasks isDispatching
    have balance := consuming.inProgress
    rw [List.countP_append, List.countP_append, none_]
    omega
  · rw [line]
    intro hungUp
    have couriers := countP_worker among tasks isCourier
    have none_ := consuming.senders hungUp
    have idle : (next.any (isCourier <| .worker ·)).toNat = 0 := by cases next <;> rfl
    omega
  · have receiving := consuming.receiving
    have receivers : (after.tasks.filterMap receiver?).Perm (run.tasks.filterMap receiver?) := by
      refine (tasks.filterMap _).trans (.trans ?_ (among.filterMap _).symm)
      cases next <;> simp [receiver?, List.filterMap_cons]
    have none_ (f : Handling → Option Delivery) (silent : ∀ e ∈ es, f e = none) :
        (log ++ es).filterMap f = log.filterMap f := by
      rw [List.filterMap_append, List.filterMap_eq_nil_iff.2 silent, List.append_nil]
    rw [eq_of_perm_of_single receivers receiving.single]
    refine ⟨receiving.single, ?_, line ▸ receiving.drained, fun ended => ?_,
      receiverEnd ▸ receiving.receiverEnd⟩
    · rw [line, none_ Handling.queued? fun e there => ?_, none_ Handling.started? fun e there => ?_]
      · exact receiving.order
      · have quiet := begun e there
        cases e <;> simp_all [Handling.started?, Handling.isStarted]
      · have named := own e there
        cases e <;> simp_all [Handling.queued?, Handling.worker?]
    · -- all workers were gone, but this one was there
      have gone := receiving.ended ended
      rw [among.countP_eq, List.countP_cons] at gone
      simp [isWorker] at gone

section Work

variable (consuming : Consuming setup run log) (numbered : after.Numbered)
  (among : run.tasks.Perm ((id, .worker w) :: rest)) (nextId : after.nextId = run.nextId)
  (shared : after.shared = (workerStep setup run.now run.shared w).1)
  (tasks : after.tasks.Perm
    (((workerStep setup run.now run.shared w).2.map .worker).toList.map (id, ·) ++ rest))
  {d : Delivery}

include consuming numbered among nextId shared tasks

/-- The dispatch makes a step, with which it returns or goes on. -/
theorem Consuming.dispatches (carries : Carries w d) (phase : w.phase = .dispatching)
    (going : w.dispatch.result? = none) (told : doings id log = [.started id d])
    (bound : after.shared.beyondClock = false) :
    Consuming setup after (log ++ handlings run.shared after.shared run.nextId id (.worker w)
      ((workerStep setup run.now run.shared w).2.map .worker)) := by
  have message : (w.dispatch.step setup.consumer run.now run.shared.desk).2.message = d.message :=
    (w.dispatch.message_step ..).trans carries.message
  simp only [workerStep, phase, going] at shared tasks ⊢
  cases reached : (w.dispatch.step setup.consumer run.now run.shared.desk).2.phase with
  | beyondClock =>
    simp only [reached] at shared
    rw [shared] at bound
    cases bound
  | done result =>
    simp only [reached] at shared tasks ⊢
    have ended : (w.dispatch.step setup.consumer run.now run.shared.desk).2.result? = some result := by
      simp [Dispatch.result?, reached]
    have did : handlings run.shared after.shared run.nextId id (.worker w) (some (.worker
        { w with
          dispatch := (w.dispatch.step setup.consumer run.now run.shared.desk).2
          phase := .settling result })) = [.returned id d.message result] := by
      simp [handlings, shared, phase, ended, carries.message]
    rw [Option.map_some, did]
    refine consuming.worker _ numbered among tasks nextId (by rw [shared]) (by rw [shared])
      (by rw [shared]; rfl) (by simp [Handling.worker?]) (by simp [Handling.isStarted])
      (by simp [isDispatching, phase, Handling.isReturned]) ?_
    rw [told]
    exact .settling ⟨carries.label, message, carries.replyTo⟩ rfl
  | _ =>
    simp only [reached] at shared tasks ⊢
    have going : (w.dispatch.step setup.consumer run.now run.shared.desk).2.result? = none := by
      simp [Dispatch.result?, reached]
    have did : handlings run.shared after.shared run.nextId id (.worker w) (some (.worker
        { dispatch := (w.dispatch.step setup.consumer run.now run.shared.desk).2, label := w.label
          replyTo := w.replyTo })) = [] := by
      simp [handlings, shared, phase, going]
    rw [Option.map_some, did]
    refine consuming.worker _ numbered among tasks nextId (by rw [shared]) (by rw [shared])
      (by rw [shared]; rfl) (by simp) (by simp) (by simp [isDispatching, phase]) ?_
    rw [told]
    exact .dispatching ⟨carries.label, message, carries.replyTo⟩ rfl going

/-- The delivery is settled with the verdict on what the dispatch returned. -/
theorem Consuming.settles {result : DispatchResult} (carries : Carries w d) (phase : w.phase = .settling result)
    (told : doings id log = [.started id d, .returned id d.message result]) :
    Consuming setup after (log ++ handlings run.shared after.shared run.nextId id (.worker w)
      ((workerStep setup run.now run.shared w).2.map .worker)) := by
  simp only [workerStep, phase, carries.label] at shared tasks ⊢
  obtain ⟨line, receiverEnd, permits⟩ :
      after.shared.line = run.shared.line ∧ after.shared.receiverEnd = run.shared.receiverEnd ∧
        after.shared.permits = run.shared.permits := by
    rw [shared]
    cases w.replyTo <;> exact ⟨rfl, rfl, rfl⟩
  have did : handlings run.shared after.shared run.nextId id (.worker w)
      (some (.worker { dispatch := w.dispatch, phase := .releasing, replyTo := w.replyTo })) =
        [.settled id (d.replyTo.toList.map (·, .ofResult result))] := by
    rw [shared, carries.replyTo]
    cases recipient : d.replyTo <;> simp [handlings, phase, reply, Reply.answer]
  rw [Option.map_some, did]
  refine consuming.worker _ numbered among tasks nextId line receiverEnd (by rw [permits]; rfl)
    (by simp [Handling.worker?]) (by simp [Handling.isStarted])
    (by simp [isDispatching, phase, Handling.isReturned]) ?_
  rw [told]
  exact .releasing rfl

/-- The permit is given back, and the worker is gone. -/
theorem Consuming.releases {result : DispatchResult} (phase : w.phase = .releasing)
    (told : doings id log = Handling.whole id d result) :
    Consuming setup after (log ++ handlings run.shared after.shared run.nextId id (.worker w)
      ((workerStep setup run.now run.shared w).2.map .worker)) := by
  simp only [workerStep, phase] at shared tasks ⊢
  have did : handlings run.shared after.shared run.nextId id (.worker w) none = [] := by
    simp [handlings, shared, phase]
  rw [Option.map_none, did]
  refine consuming.worker none numbered among tasks nextId (by rw [shared]) (by rw [shared])
    (by rw [shared]; rfl) (by simp) (by simp) (by simp [isDispatching, phase]) ?_
  rw [told]
  exact .gone

/-- A worker that does not go beyond the clock makes the step that its career has next. -/
theorem Consuming.work (bound : after.shared.beyondClock = false) :
    Consuming setup after (log ++ handlings run.shared after.shared run.nextId id (.worker w)
      ((workerStep setup run.now run.shared w).2.map .worker)) := by
  obtain ⟨career, -⟩ := consuming.career_of_worker among
  generalize told : doings id log = es at career
  cases career with
  | dispatching carries phase going =>
    exact consuming.dispatches numbered among nextId shared tasks carries phase going told bound
  | settling carries phase =>
    exact consuming.settles numbered among nextId shared tasks carries phase told
  | releasing phase => exact consuming.releases numbered among nextId shared tasks phase told

end Work

end Worker

theorem hungUp_of_pop? {line rest : Line} {d : Delivery} (popped : line.pop? = some (d, rest)) :
    rest.hungUp = line.hungUp := by
  unfold Line.pop? at popped
  split at popped
  · cases popped
  · split at popped <;> obtain ⟨-, rfl⟩ := Prod.mk.inj (Option.some.inj popped) <;> rfl

section Receive

variable (consuming : Consuming setup run log) (numbered : after.Numbered) {id : Nat} {r : Receiver}
  {rest : List (Nat × Job)} (among : run.tasks.Perm ((id, .receiver r) :: rest))
  (ready : receiverReady setup run.shared r = true)
  (shared : after.shared = (receiverStep run.now run.shared r).shared)
  (nextId : after.nextId = run.nextId + (receiverStep run.now run.shared r).spawned.length)
  (tasks : after.tasks.Perm ((receiverStep run.now run.shared r).next.toList.map (id, ·) ++ rest ++
    (receiverStep run.now run.shared r).spawned.mapIdx fun i job => (run.nextId + i, job)))

include consuming numbered among ready shared nextId tasks

/-- The first delivery is taken from the line, or there will be none any more. -/
theorem Consuming.takes (receives : r = .receiving) :
    Consuming setup after (log ++ handlings run.shared after.shared run.nextId id (.receiver r)
      (receiverStep run.now run.shared r).next) := by
  subst receives
  simp only [receiverStep] at shared nextId tasks ⊢
  cases popped : run.shared.line.pop? with
  | none =>
    simp only [popped] at shared nextId tasks ⊢
    have empty : run.shared.line.queue = [] := by
      unfold Line.pop? at popped
      split at popped
      · assumption
      · split at popped <;> cases popped
    have hungUp : run.shared.line.hungUp = true := by simpa [receiverReady, empty] using ready
    have did : handlings run.shared after.shared run.nextId id (.receiver .receiving)
        (some (.receiver .draining)) = [] := by
      simp [handlings, shared]
    rw [did, List.append_nil]
    refine consuming.receiver (some .draining) numbered among (by simpa using tasks) (by omega)
      (by rw [shared]) (by rw [shared]) (by rw [shared]) fun alone => ?_
    have receiving := consuming.receiving
    rw [alone] at receiving
    rw [shared]
    exact ⟨Nat.le_refl _, receiving.order, fun _ => ⟨hungUp, empty⟩, by simp, receiving.receiverEnd⟩
  | some taken =>
    obtain ⟨d, line⟩ := taken
    simp only [popped] at shared nextId tasks ⊢
    obtain ⟨queue, closed⟩ := Post.queue_of_pop? popped
    have did : handlings run.shared after.shared run.nextId id (.receiver .receiving)
        (some (.receiver (.holding d))) = [] := by
      simp [handlings, shared, queue]
    rw [did, List.append_nil]
    refine consuming.receiver (some (.holding d)) numbered among (by simpa using tasks)
      (by omega) (by rw [shared]; exact closed) (by rw [shared]; exact hungUp_of_pop? popped)
      (by rw [shared]) fun alone => ?_
    have receiving := consuming.receiving
    rw [alone] at receiving
    rw [shared]
    refine ⟨Nat.le_refl _, ?_, fun all => ?_, by simp, receiving.receiverEnd⟩
    · rw [receiving.order, queue]
      simp [Receiver.held]
    · exact absurd (all _ (List.mem_singleton_self _)) (by simp)

/-- The receiver takes a delivery, hands it out, sees that there are no more, or finishes. -/
theorem Consuming.receive (narrow : setup.allPermits = setup.limit) :
    Consuming setup after (log ++ handlings run.shared after.shared run.nextId id (.receiver r)
      (receiverStep run.now run.shared r).next) := by
  cases r with
  | receiving => exact consuming.takes numbered among ready shared nextId tasks rfl
  | holding d =>
    simp only [receiverStep] at shared nextId tasks ⊢
    have did : handlings run.shared after.shared run.nextId id (.receiver (.holding d))
        (some (.receiver .receiving)) = [.started run.nextId d] := by
      simp [handlings, shared]
    rw [did]
    refine consuming.handed numbered among (by simpa [receiverReady] using ready) nextId shared ?_
    simpa [Worker.begin] using tasks
  | draining =>
    simp only [receiverStep] at shared nextId tasks ⊢
    have back : setup.limit ≤ run.shared.permits := by simpa [receiverReady, narrow] using ready
    have did : handlings run.shared after.shared run.nextId id (.receiver .draining) none = [] := by
      simp [handlings, shared]
    rw [did, List.append_nil]
    refine consuming.receiver none numbered among (by simpa using tasks) (by omega)
      (by rw [shared]) (by rw [shared]) (by rw [shared]) fun alone => ?_
    have receiving := consuming.receiving
    have balance := consuming.permits
    rw [alone] at receiving
    rw [shared]
    refine ⟨Nat.zero_le _, receiving.order, fun _ => receiving.drained (by simp), fun _ => by omega, rfl⟩

end Receive

/-- A timer that fires changes nothing. -/
theorem Consuming.elapsed (consuming : Consuming setup run log) (numbered : after.Numbered) {id : Nat}
    {until_ : Instant} {rest : List (Nat × Job)} (among : run.tasks.Perm ((id, .timer until_) :: rest))
    (nextId : run.nextId ≤ after.nextId) (shared : after.shared = run.shared) (tasks : after.tasks.Perm rest) :
    Consuming setup after log := by
  have receivers : (after.tasks.filterMap receiver?).Perm (run.tasks.filterMap receiver?) := by
    simpa [receiver?] using (tasks.filterMap _).trans (among.filterMap receiver?).symm
  rw [← List.append_nil log]
  refine consuming.aside numbered ?_ nextId [] (shared ▸ consuming.open_) (by rw [shared]) ?_
    (consuming.receiving.push receivers [] (by rw [shared, List.append_nil]) (by simp [shared])
      (by rw [shared]))
  · simpa [isWorker] using (tasks.filter _).trans (among.filter (isWorker ·.2)).symm
  · intro hungUp
    have none_ := consuming.senders (shared ▸ hungUp)
    rw [among.countP_eq] at none_
    rw [tasks.countP_eq]
    simpa [isCourier] using none_

end Steps

section Runs

variable {setup : Setup σ} {run : ExchangeRun σ} {log : List Handling}

theorem Consuming.sent {after : ExchangeRun σ} {m : Message} (consuming : Consuming setup run log)
    (live : run.shared.line.hungUp = false) (accepted : run.send m = (.ok (), after)) :
    Consuming setup after log := by
  obtain ⟨shared, nextId, tasks⟩ := send_eq_ok accepted
  have numbered : after.Numbered := by
    unfold ExchangeRun.send at accepted
    split at accepted
    · cases accepted
    · obtain rfl := (Prod.mk.inj accepted).2
      refine Schedule.Numbered.spawn (Schedule.Numbered.mk ?_ ?_) _
      · exact consuming.numbered.distinct
      · exact consuming.numbered.below
  have stays := consuming.outside numbered _ (by simp [isCourier]) tasks (by omega) []
    (by rw [shared]) (by rw [shared, List.append_nil]) (by simp [live]) (by simp [shared, live])
    (by rw [shared]) (by rw [shared])
  simpa using stays

/-- What is shared is changed from outside, but for deliveries put on the line not in what the receiver
looks at. -/
theorem Consuming.change (consuming : Consuming setup run log) {f : Exchange σ → Exchange σ}
    (after : Exchange σ) (made : f run.shared = after) (new : List Delivery)
    (closed : after.line.closed = run.shared.line.closed)
    (queue : after.line.queue = run.shared.line.queue ++ new)
    (live : run.shared.line.hungUp = true → after.line.hungUp = true ∧ new = [])
    (senders : after.line.hungUp = true → run.tasks.countP (isCourier ·.2) = 0)
    (permits : after.permits = run.shared.permits) (receiverEnd : after.receiverEnd = run.shared.receiverEnd) :
    Consuming setup (run.change setup f) (log ++ new.map .queued) := by
  subst made
  have tasks : (run.change setup f).tasks.Perm run.tasks := Schedule.tasks_wake ..
  refine consuming.outside (consuming.numbered.of_perm tasks rfl) [] (by simp) (by simpa using tasks)
    (Nat.le_refl _) new closed queue live (fun hungUp => ?_) permits receiverEnd
  rw [tasks.countP_eq]
  exact senders hungUp

theorem consuming_of_consumes (narrow : setup.allPermits = setup.limit) (consumes : Consumes setup run log)
    (bound : run.shared.beyondClock = false) : Consuming setup run log := by
  induction consumes with
  | start store capacity => exact consuming_start store capacity
  | sent before live accepted ih =>
    rw [(send_eq_ok accepted).1] at bound
    exact (ih bound).sent live accepted
  | @pushed run log before live d ih =>
    have consuming : Consuming setup run log := by
      refine ih ?_
      cases closed : run.shared.line.closed <;>
        simpa [ExchangeRun.push, ExchangeRun.change, Schedule.poke, Schedule.wake, closed] using bound
    refine consuming.change { run.shared with line := run.shared.line.push d }
      (by simp [consuming.open_]) [d] rfl rfl ?_ ?_ rfl rfl <;> simp [Line.push, live]
  | @changed run log before f ih =>
    have consuming := ih bound
    rw [← List.append_nil log]
    exact consuming.change _ rfl [] rfl (List.append_nil _).symm (fun hungUp => ⟨hungUp, rfl⟩)
      consuming.senders rfl rfl
  | @hungUp run log before nobody ih =>
    rw [← List.append_nil log]
    exact (ih bound).change _ rfl [] rfl (List.append_nil _).symm (fun _ => ⟨rfl, rfl⟩)
      (fun _ => nobody) rfl rfl
  | passed before later shared nextId tasks ih =>
    have consuming := ih (shared ▸ bound)
    have stays := consuming.outside (consuming.numbered.of_perm tasks nextId) [] (by simp)
      (by simpa using tasks) (by omega) [] (by rw [shared]) (by rw [shared, List.append_nil])
      (by simp [shared]) (by rw [shared, tasks.countP_eq]; exact consuming.senders) (by rw [shared])
      (by rw [shared])
    simpa using stays
  | @stepped run after log id job rest before among ready now shared nextId tasks ih =>
    have acts := acts_step ready
    rw [← shared] at acts
    have consuming : Consuming setup run log := ih (acts.withinClock bound)
    have numbered : after.Numbered :=
      consuming.numbered.goes (.stepped among ready now shared nextId tasks)
    cases job with
    | courier m phase =>
      have did : handlings run.shared after.shared run.nextId id (.courier m phase)
          ((system setup).step run.now run.shared id (.courier m phase)).next =
          (after.shared.line.queue.drop run.shared.line.queue.length).map .queued := by
        simp [handlings]
      rw [did]
      exact consuming.courier numbered among (by omega) shared (by simpa [system] using tasks)
    | receiver r => exact consuming.receive numbered among ready shared nextId tasks narrow
    | worker w =>
      exact consuming.work numbered among nextId shared (by simpa [system] using tasks) bound
    | timer until_ =>
      have did : handlings run.shared after.shared run.nextId id (.timer until_)
          ((system setup).step run.now run.shared id (.timer until_)).next = [] := by
        simp [handlings, shared, system]
      rw [did, List.append_nil]
      exact consuming.elapsed numbered among (by omega) shared (by simpa [system] using tasks)

theorem Setup.allPermits_eq (narrow : setup.consumer.maxConcurrency < 2 ^ 32) :
    setup.allPermits = setup.limit := by
  unfold Setup.allPermits Setup.limit
  omega

/-- The receiver waits for a permit only while there are as many workers as there may be, and for its end
exactly until there are none. -/
theorem Consuming.ready_iff (narrow : setup.allPermits = setup.limit) (consuming : Consuming setup run log) :
    (∀ d, receiverReady setup run.shared (.holding d) = true ↔
      run.tasks.countP (isWorker ·.2) < setup.limit) ∧
    (receiverReady setup run.shared .draining = true ↔ run.tasks.countP (isWorker ·.2) = 0) := by
  have balance := consuming.permits
  simp only [receiverReady, narrow, decide_eq_true_eq]
  exact ⟨fun _ => by omega, by omega⟩

theorem Consuming.countP_isDispatching_le (consuming : Consuming setup run log) :
    run.tasks.countP (isDispatching ·.2) ≤ setup.limit := by
  have among : run.tasks.countP (isDispatching ·.2) ≤ run.tasks.countP (isWorker ·.2) :=
    List.countP_mono_left fun task _ => by
      obtain ⟨id, job⟩ := task
      cases job <;> simp [isDispatching, isWorker]
  have balance := consuming.permits
  omega

/-- Those who wait for the verdict on a delivery are told that it was handled if its dispatch returned an outcome,
and that it was not if it returned an error. -/
theorem Consuming.verdict (consuming : Consuming setup run log) {n : Nat} {answers : List (Nat × Verdict)}
    (settled : .settled n answers ∈ log) :
    ∃ d, .started n d ∈ log ∧
      ((∃ outcome, .returned n d.message (.ok outcome) ∈ log ∧ answers = d.replyTo.toList.map (·, .ack)) ∨
        ∃ error, .returned n d.message (.error error) ∈ log ∧ answers = d.replyTo.toList.map (·, .nack)) := by
  have did : .settled n answers ∈ doings n log := List.mem_filter.2 ⟨settled, by simp [Handling.worker?]⟩
  obtain ⟨d, result, told⟩ := (consuming.careers n).eq_whole_of_settled did
  have among {event : Handling} (part : event ∈ Handling.whole n d result) : event ∈ log :=
    List.mem_of_mem_filter (told.symm ▸ part)
  have started : .started n d ∈ log := among (by simp [Handling.whole])
  have returned : .returned n d.message result ∈ log := among (by simp [Handling.whole])
  have said : answers = d.replyTo.toList.map (·, .ofResult result) := by
    rw [told] at did
    simpa [Handling.whole] using did
  refine ⟨d, started, ?_⟩
  cases result with
  | ok outcome => exact .inl ⟨outcome, returned, said⟩
  | error error => exact .inr ⟨error, returned, said⟩

/-- The receiver is gone: all that was put on the line was dispatched, and all of that settled. -/
theorem Consuming.whole (consuming : Consuming setup run log) (ended : run.shared.receiverEnd.isSome = true) :
    run.shared.line.hungUp = true ∧ run.shared.line.queue = [] ∧
      log.filterMap Handling.started? = log.filterMap Handling.queued? ∧
      ∀ n d, .started n d ∈ log → ∃ result, doings n log = Handling.whole n d result := by
  have receiving := consuming.receiving
  have gone : run.tasks.filterMap receiver? = [] :=
    List.isEmpty_iff.1 (receiving.receiverEnd.symm.trans ended)
  rw [gone] at receiving
  obtain ⟨hungUp, empty⟩ := receiving.drained (by simp)
  refine ⟨hungUp, empty, by simp [receiving.order, empty], fun n d started => ?_⟩
  have nobody : run.tasks.filterMap (worker? n) = [] := by
    refine List.filterMap_eq_nil_iff.2 fun task there => ?_
    have other := List.countP_eq_zero.1 (receiving.ended rfl) task there
    obtain ⟨id, job⟩ := task
    cases job <;> simp_all [isWorker, worker?]
  have did : .started n d ∈ doings n log := List.mem_filter.2 ⟨started, by simp [Handling.worker?]⟩
  have career := consuming.careers n
  rw [nobody] at career
  generalize doings n log = es at career did
  cases career with
  | unborn => cases did
  | @gone other result =>
    obtain rfl : d = other := by simpa [Handling.whole] using did
    exact ⟨result, rfl⟩

/-- Let a consumer receive deliveries, from couriers or from outside, while the store changes, time passes and
the tasks make their steps in any order, and let no dispatch go beyond the clock. At every moment there are at
most as many dispatches as there may be, and no more workers than that. Deliveries are dispatched in the order
in which they were put on the line. Each worker is for one delivery, dispatches its message once, and then
settles it once, with the verdict on what the dispatch returned: it was handled if that is an outcome, and it was not
if that is an error. When the receiver has finished, nobody sends any more, nothing is on the line, and every delivery
ever put there has been dispatched and settled. It waits for a permit only while all are out, and for its end exactly
as long as there are workers. -/
theorem deliveries_handled (narrow : setup.consumer.maxConcurrency < 2 ^ 32)
    (consumes : Consumes setup run log) (bound : run.shared.beyondClock = false) :
    log.countP (·.isStarted) ≤ log.countP (·.isReturned) + max setup.consumer.maxConcurrency 1 ∧
    run.tasks.countP (isWorker ·.2) ≤ max setup.consumer.maxConcurrency 1 ∧
    log.filterMap Handling.started? <+: log.filterMap Handling.queued? ∧
    (∀ n, doings n log = [] ∨
      ∃ d result, doings n log ≠ [] ∧ doings n log <+: Handling.whole n d result) ∧
    (∀ n answers, .settled n answers ∈ log → ∃ d, .started n d ∈ log ∧
      ((∃ outcome, .returned n d.message (.ok outcome) ∈ log ∧ answers = d.replyTo.toList.map (·, .ack)) ∨
        ∃ error, .returned n d.message (.error error) ∈ log ∧ answers = d.replyTo.toList.map (·, .nack))) ∧
    (run.shared.receiverEnd.isSome = true →
      run.shared.line.hungUp = true ∧ run.shared.line.queue = [] ∧
      log.filterMap Handling.started? = log.filterMap Handling.queued? ∧
      ∀ n d, .started n d ∈ log → ∃ result, doings n log = Handling.whole n d result) ∧
    (∀ d, receiverReady setup run.shared (.holding d) = true ↔
      run.tasks.countP (isWorker ·.2) < max setup.consumer.maxConcurrency 1) ∧
    (receiverReady setup run.shared .draining = true ↔ run.tasks.countP (isWorker ·.2) = 0) := by
  have all := Setup.allPermits_eq narrow
  have consuming := consuming_of_consumes all consumes bound
  obtain ⟨holds, drains⟩ := consuming.ready_iff all
  refine ⟨?_, ?_, ?_, fun n => (consuming.careers n).isPrefix_doings, fun n answers => consuming.verdict,
    consuming.whole, holds, drains⟩
  · have most := consuming.countP_isDispatching_le
    have balance := consuming.inProgress
    unfold Setup.limit at most
    omega
  · have balance := consuming.permits
    unfold Setup.limit at balance
    omega
  · rw [consuming.receiving.order, List.append_assoc]
    exact List.prefix_append ..

theorem Consumes.goes {after : ExchangeRun σ} (consumes : Consumes setup run log)
    (goes : Schedule.Goes (system setup) run after) : ∃ more, Consumes setup after (log ++ more) := by
  cases goes with
  | passed later shared nextId tasks =>
    refine ⟨[], ?_⟩
    rw [List.append_nil]
    exact consumes.passed later shared nextId tasks
  | stepped among ready now shared nextId tasks =>
    exact ⟨_, consumes.stepped among ready now shared nextId tasks⟩

theorem Consumes.runUntil {after : ExchangeRun σ} {stop : ExchangeRun σ → Bool} {fuel : Nat}
    (consumes : Consumes setup run log) (ran : Schedule.runUntil (system setup) stop fuel run = some after) :
    ∃ more, Consumes setup after (log ++ more) := by
  refine Schedule.of_runUntil (fun s => ∃ more, Consumes setup s (log ++ more)) (fun s t goes => ?_)
    ⟨[], by rwa [List.append_nil]⟩ ran
  rintro ⟨first, consumes⟩
  obtain ⟨later, consumes⟩ := consumes.goes goes
  exact ⟨first ++ later, by rwa [← List.append_assoc]⟩

end Runs

section Samples

open Fixtures

/-- Two dispatches at a time. -/
def pair : Setup Store := { consumer := { service with maxConcurrency := 2 } }

/-- Two companies, and a message that nobody handles; somebody waits for the verdicts on the companies. -/
def stock : List Delivery :=
  [ ⟨companyCreated "c-1" "Acme" (stamp 1), 0, some 7⟩, ⟨branch, 0, none⟩,
    ⟨companyCreated "c-2" "Other" (stamp 1), 0, some 8⟩ ]

/-- All of it is on the line, and nobody sends any more. The first write fails. -/
def stocked : ExchangeRun Store :=
  (stock.foldl (fun run d => run.push pair d)
    ((ExchangeRun.start (Store.failNextWrites {} 1) (.ofCapacity 1)).receive pair)).hangUp pair

theorem deliveries_handled_stocked :
    pair.consumer.maxConcurrency < 2 ^ 32 ∧ ∃ after log,
      stocked.runUntil pair 100 (·.receiverEnd.isSome) = some after ∧ Consumes pair after log ∧
      after.shared.beyondClock = false ∧ after.shared.replies = [⟨7, .nack, 0⟩, ⟨8, .ack, 0⟩] ∧
      stock <+: log.filterMap Handling.started? ∧
      (∀ n answers, .settled n answers ∈ log → ∃ d, .started n d ∈ log ∧
        ((∃ outcome, .returned n d.message (.ok outcome) ∈ log ∧ answers = d.replyTo.toList.map (·, .ack)) ∨
          ∃ error, .returned n d.message (.error error) ∈ log ∧ answers = d.replyTo.toList.map (·, .nack))) ∧
      ∀ n d, .started n d ∈ log → ∃ result, doings n log = Handling.whole n d result := by
  have narrow : pair.consumer.maxConcurrency < 2 ^ 32 := by decide
  have consumes : Consumes pair stocked (stock.map .queued) :=
    ((((Consumes.start (Store.failNextWrites {} 1) 1).pushed rfl _).pushed rfl _).pushed rfl _).hungUp rfl
  have ends : (stocked.runUntil pair 100 (·.receiverEnd.isSome)).map
      (fun after => (after.shared.beyondClock, after.shared.receiverEnd.isSome, after.shared.replies)) =
        some (false, true, [⟨7, .nack, 0⟩, ⟨8, .ack, 0⟩]) := by
    decide +kernel
  obtain ⟨after, ran, made⟩ := Option.map_eq_some_iff.1 ends
  simp only [Prod.mk.injEq] at made
  obtain ⟨bound, ended, replies⟩ := made
  obtain ⟨log, consumes⟩ := consumes.runUntil ran
  obtain ⟨-, -, -, -, verdicts, whole, -⟩ := deliveries_handled narrow consumes bound
  obtain ⟨-, -, all, settled⟩ := whole ended
  refine ⟨narrow, after, _, ran, consumes, bound, replies, ?_, verdicts, settled⟩
  rw [all, List.filterMap_append]
  exact List.prefix_append ..

end Samples

end Exchange

end Replica

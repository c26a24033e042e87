import Replica.Exchange.Run
import Replica.Proofs.Delivery
import Replica.Proofs.Turns
/-! What an exchange leaves behind while a consumer receives what is sent. Its tasks may make their steps
in any order; the incidents of a step are read off what the tasks share before and after it. -/
namespace Replica

/-- Something that happened to a message, or to one of its deliveries. -/
inductive Incident where
  /-- A message was sent, and this is the number of its courier. -/
  | sent (id : Nat) (m : Message)
  /-- A delivery was put on the line. -/
  | delivered (d : Delivery)
  /-- A dispatch for a courier ended. -/
  | dispatched (owner : Option Nat) (m : Message) (result : DispatchResult)
  | answered (recipient : Nat) (verdict : Verdict)
  /-- A message was set aside, by a courier or by a dispatch for it. -/
  | shelved (owner : Option Nat) (letter : DeadLetter)

namespace Incident

def delivery? : Incident → Option Delivery
  | delivered d => some d
  | _ => none

def letter? : Incident → Option DeadLetter
  | shelved _ letter => some letter
  | _ => none

end Incident

namespace Exchange

variable {σ : Type}

/-- The courier for which a task works. -/
def owner? (id : Nat) : Job → Option Nat
  | .courier .. => some id
  | .worker w => w.replyTo
  | _ => none

/-- The end of a dispatch, when its worker reports it. -/
def reported : Job → List Incident
  | .worker w =>
    match w.phase with
    | .settling result => [.dispatched w.replyTo w.dispatch.message result]
    | _ => []
  | _ => []

/-- What a step of a task left behind. -/
def incidents (before after : Exchange σ) (id : Nat) (job : Job) : List Incident :=
  (after.line.queue.drop before.line.queue.length).map .delivered ++ reported job ++
    (after.replies.drop before.replies.length).map (fun r => .answered r.recipient r.verdict) ++
    (after.desk.letters.drop before.desk.letters.length).map (.shelved (owner? id job))

/-- An exchange with a consumer, and all that happened so far. -/
inductive Unfolds (setup : Setup σ) : ExchangeRun σ → List Incident → Prop
  | start (store : σ) (capacity : Nat) : Unfolds setup (.start store (.ofCapacity capacity)) []
  | receive {run : ExchangeRun σ} {log : List Incident} (before : Unfolds setup run log) :
    Unfolds setup (run.receive setup) log
  | sent {run after : ExchangeRun σ} {m : Message} {log : List Incident}
    (before : Unfolds setup run log) (accepted : run.send m = (.ok (), after)) :
    Unfolds setup after (log ++ [.sent run.nextId m])
  /-- The store is changed from outside, or told to fail. -/
  | changed {run : ExchangeRun σ} {log : List Incident} (before : Unfolds setup run log) (f : σ → σ) :
    Unfolds setup (run.changeStore setup f) log
  | hungUp {run : ExchangeRun σ} {log : List Incident} (before : Unfolds setup run log) :
    Unfolds setup (run.hangUp setup) log
  /-- Time passes. -/
  | passed {run after : ExchangeRun σ} {log : List Incident} (before : Unfolds setup run log)
    (shared : after.shared = run.shared) (nextId : after.nextId = run.nextId)
    (tasks : after.tasks.Perm run.tasks) : Unfolds setup after log
  /-- A task that can go on makes a step. -/
  | stepped {run after : ExchangeRun σ} {log : List Incident} {id : Nat} {job : Job}
    {rest : List (Nat × Job)} (before : Unfolds setup run log)
    (among : run.tasks.Perm ((id, job) :: rest))
    (ready : (system setup).ready run.now run.shared id job = true)
    (shared : after.shared = ((system setup).step run.now run.shared id job).shared)
    (nextId : after.nextId =
      run.nextId + ((system setup).step run.now run.shared id job).spawned.length)
    (tasks : after.tasks.Perm
      (((system setup).step run.now run.shared id job).next.toList.map (id, ·) ++ rest ++
        ((system setup).step run.now run.shared id job).spawned.mapIdx
          fun i task => (run.nextId + i, task))) :
    Unfolds setup after (log ++ incidents run.shared after.shared id job)

theorem Unfolds.goes {setup : Setup σ} {run after : ExchangeRun σ} {log : List Incident}
    (unfolds : Unfolds setup run log) (goes : Schedule.Goes (system setup) run after) :
    ∃ more, Unfolds setup after (log ++ more) := by
  cases goes with
  | passed later shared nextId tasks =>
    refine ⟨[], ?_⟩
    rw [List.append_nil]
    exact unfolds.passed shared nextId tasks
  | stepped among ready now shared nextId tasks =>
    exact ⟨_, unfolds.stepped among ready shared nextId tasks⟩

theorem Unfolds.runUntil {setup : Setup σ} {stop : ExchangeRun σ → Bool} {fuel : Nat}
    {run after : ExchangeRun σ} {log : List Incident} (unfolds : Unfolds setup run log)
    (ran : Schedule.runUntil (system setup) stop fuel run = some after) :
    ∃ more, Unfolds setup after (log ++ more) := by
  refine Schedule.of_runUntil (fun s => ∃ more, Unfolds setup s (log ++ more)) (fun s t goes => ?_)
    ⟨[], by rwa [List.append_nil]⟩ ran
  rintro ⟨first, unfolds⟩
  obtain ⟨later, unfolds⟩ := unfolds.goes goes
  exact ⟨first ++ later, by rwa [← List.append_assoc]⟩

/-! ### What one step does -/

/-- What a courier left behind, as an incident. -/
def incident? (id : Nat) : Post.Event → Option Incident
  | .queued d => some (.delivered d)
  | .shelved _ letter => some (.shelved (some id) letter)
  | _ => none

/-- The effect of a task's step, what becomes of the task, and the incidents. -/
inductive Acts (setup : Setup σ) (now : Instant) (x : Exchange σ) (id : Nat) :
    Job → Exchange σ → Option Job → List Job → List Incident → Prop
  | courier {m : Message} {phase : Courier.Phase} {after : Exchange σ} {next : Option Courier.Phase}
    {es : List Post.Event} (steps : Post.Steps setup.retry x id m phase after next es) :
    Acts setup now x id (.courier m phase) after (next.map (.courier m)) [] (es.filterMap (incident? id))
  | took {d : Delivery} {line : Line} (popped : x.line.pop? = some (d, line)) :
    Acts setup now x id (.receiver .receiving) { x with line } (some (.receiver (.holding d))) [] []
  | drained :
    Acts setup now x id (.receiver .receiving) x (some (.receiver .draining)) [] []
  | handed {d : Delivery} :
    Acts setup now x id (.receiver (.holding d)) { x with permits := x.permits - 1 }
      (some (.receiver .receiving))
      [.worker { dispatch := { message := d.message }, replyTo := d.replyTo }] []
  | ended :
    Acts setup now x id (.receiver .draining) { x with receiverEnd := some now } none [] []
  /-- The dispatch makes a step, which is its last if it leads to a result. -/
  | dispatched {w later : Worker} (going : w.phase = .dispatching) (label : later.label = w.label)
    (replyTo : later.replyTo = w.replyTo)
    (dispatch : later.dispatch = (w.dispatch.step setup.consumer now x.desk).2)
    (phase : later.phase = .dispatching ∨
      ∃ result, later.dispatch.phase = .done result ∧ later.phase = .settling result) :
    Acts setup now x id (.worker w) { x with desk := (w.dispatch.step setup.consumer now x.desk).1 }
      (some (.worker later)) []
      (((w.dispatch.step setup.consumer now x.desk).1.letters.drop x.desk.letters.length).map
        (.shelved w.replyTo))
  /-- The dispatch reached beyond the end of the clock. -/
  | lost {w : Worker} {after : Exchange σ} {es : List Incident} (gone : after.beyondClock = true) :
    Acts setup now x id (.worker w) after none [] es
  /-- The dispatch had ended before. -/
  | found {w : Worker} {result : DispatchResult} (going : w.phase = .dispatching)
    (done : w.dispatch.phase = .done result) :
    Acts setup now x id (.worker w) x (some (.worker { w with phase := .settling result })) [] []
  | settled {w : Worker} {result : DispatchResult} (phase : w.phase = .settling result)
    (unlabelled : w.label = none) :
    Acts setup now x id (.worker w) (x.reply now w.replyTo (.ofResult result))
      (some (.worker { w with phase := .releasing })) []
      (.dispatched w.replyTo w.dispatch.message result ::
        w.replyTo.toList.map (.answered · (.ofResult result)))
  /-- The dispatch was started by hand. -/
  | filed {w : Worker} {after : Exchange σ} {es : List Incident} (labelled : w.label ≠ none)
    (same : after.beyondClock = x.beyondClock) : Acts setup now x id (.worker w) after none [] es
  | released {w : Worker} (phase : w.phase = .releasing) :
    Acts setup now x id (.worker w) { x with permits := x.permits + 1 } none [] []
  | elapsed {until_ : Instant} : Acts setup now x id (.timer until_) x none [] []

theorem incidents_courier {setup : Setup σ} {x after : Exchange σ} {id : Nat} {m : Message}
    {phase : Courier.Phase} {next : Option Courier.Phase} {es : List Post.Event}
    (steps : Post.Steps setup.retry x id m phase after next es) :
    incidents x after id (.courier m phase) = es.filterMap (incident? id) := by
  have shorter (p : Reply → Bool) : (x.replies.eraseP p).drop x.replies.length = [] :=
    List.drop_eq_nil_of_le List.eraseP_sublist.length_le
  cases steps <;> simp_all [incidents, reported, incident?, owner?, Line.enlist, Desk.shelve]

/-- The worker of a dispatch for a courier, about to settle it once it is done. -/
def workerOf (recipient : Nat) (d : Dispatch) : Worker :=
  match d.phase with
  | .done result => { dispatch := d, phase := .settling result, replyTo := some recipient }
  | _ => { dispatch := d, replyTo := some recipient }

theorem workerOf_of_not_done {recipient : Nat} {d : Dispatch} (going : ∀ result, d.phase ≠ .done result) :
    workerOf recipient d = { dispatch := d, replyTo := some recipient } := by
  unfold workerOf
  split
  · exact absurd ‹_› (going _)
  · rfl

/-- What the worker becomes by a step of its dispatch. -/
theorem workerStep_dispatching {setup : Setup σ} {now : Instant} (x : Exchange σ) (recipient : Nat) {d : Dispatch}
    (going : ∀ result, d.phase ≠ .done result)
    (within : (d.step setup.consumer now x.desk).2.phase ≠ .beyondClock) :
    workerStep setup now x { dispatch := d, replyTo := some recipient } =
      ({ x with desk := (d.step setup.consumer now x.desk).1 },
        some (workerOf recipient (d.step setup.consumer now x.desk).2)) := by
  have undecided : d.result? = none := by
    unfold Dispatch.result?
    split
    · exact absurd ‹_› (going _)
    · rfl
  simp only [workerStep, undecided]
  cases reached : (d.step setup.consumer now x.desk).2.phase with
  | beyondClock => exact absurd reached within
  | _ => simp [workerOf, reached]

theorem acts_worker (setup : Setup σ) (now : Instant) (x : Exchange σ) (id : Nat) (w : Worker) :
    Acts setup now x id (.worker w) (workerStep setup now x w).1
      ((workerStep setup now x w).2.map .worker) []
      (incidents x (workerStep setup now x w).1 id (.worker w)) := by
  unfold workerStep
  cases phase : w.phase with
  | dispatching =>
    cases decided : w.dispatch.result? with
    | some result =>
      have done : w.dispatch.phase = .done result := by
        cases ended : w.dispatch.phase <;> simp_all [Dispatch.result?]
      have acts : Acts setup now x id (.worker w) x _ [] [] := .found phase done
      simpa [incidents, reported, phase] using acts
    | none =>
      dsimp only
      cases reached : (w.dispatch.step setup.consumer now x.desk).2.phase with
      | beyondClock => exact .lost rfl
      | done result =>
        let later : Worker :=
          { w with dispatch := (w.dispatch.step setup.consumer now x.desk).2, phase := .settling result }
        have acts : Acts setup now x id (.worker w) _ (some (.worker later)) [] _ :=
          .dispatched phase rfl rfl rfl (.inr ⟨result, reached, rfl⟩)
        simpa [later, incidents, reported, phase, owner?] using acts
      | _ =>
        let later : Worker := { w with dispatch := (w.dispatch.step setup.consumer now x.desk).2 }
        have acts : Acts setup now x id (.worker w) _ (some (.worker later)) [] _ :=
          .dispatched phase rfl rfl rfl (.inl phase)
        simpa [later, incidents, reported, phase, owner?] using acts
  | settling result =>
    cases label : w.label with
    | some label => exact .filed (by simp [*]) rfl
    | none =>
      have acts : Acts setup now x id (.worker w) _ _ [] _ := .settled phase label
      cases recipient : w.replyTo <;> simpa [incidents, reported, phase, recipient, label, reply] using acts
  | releasing =>
    have acts : Acts setup now x id (.worker w) _ none [] [] := .released phase
    simpa [incidents, reported, phase] using acts

theorem acts_step {setup : Setup σ} {now : Instant} {x : Exchange σ} {id : Nat} {job : Job}
    (ready : (system setup).ready now x id job = true) :
    Acts setup now x id job ((system setup).step now x id job).shared
      ((system setup).step now x id job).next ((system setup).step now x id job).spawned
      (incidents x ((system setup).step now x id job).shared id job) := by
  cases job with
  | courier m phase =>
    have steps : Post.Steps setup.retry x id m phase (courierStep setup.retry now x id m phase).1
        (courierStep setup.retry now x id m phase).2 _ := Post.steps_courierStep ready rfl
    have same : incidents x ((system setup).step now x id (.courier m phase)).shared id (.courier m phase) =
        _ := incidents_courier steps
    rw [same]
    exact .courier steps
  | receiver r =>
    cases r with
    | receiving =>
      simp only [system, receiverStep]
      cases popped : x.line.pop? with
      | none => simpa [incidents, reported] using Acts.drained
      | some taken =>
        obtain ⟨d, line⟩ := taken
        have shorter : line.queue.length ≤ x.line.queue.length := by
          rw [(Post.queue_of_pop? popped).1]
          exact Nat.le_succ _
        simpa [incidents, reported, List.drop_eq_nil_of_le shorter] using Acts.took popped
    | holding d => simpa [system, receiverStep, incidents, reported] using Acts.handed
    | draining => simpa [system, receiverStep, incidents, reported] using Acts.ended
  | worker w => exact acts_worker setup now x id w
  | timer until_ => simpa [system, incidents, reported] using Acts.elapsed

end Exchange

end Replica

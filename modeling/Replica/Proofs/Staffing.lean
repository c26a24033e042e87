import Replica.Proofs.Ledger
import Replica.Proofs.Setbacks
import Replica.Proofs.Tally
/-! The workers of an exchange as a crew. A worker dispatches one delivery and then reports what that gave; seen
from the store, all dispatches of an exchange, those of workers long gone included, are those of a crew that
made its moves in the same order. -/
namespace Replica

namespace Incident

/-- The message that was sent. -/
def message? : Incident → Option Message
  | sent _ m => some m
  | _ => none

/-- The message of a dispatch that ended, and what it gave. -/
def result? : Incident → Option (Message × DispatchResult)
  | dispatched _ m result => some (m, result)
  | _ => none

end Incident

/-- The crew was led to by moves that leave the records to the dispatches. -/
def Crew.Reaches {σ : Type} (c : Consumer σ) (store : σ → Store) (s : σ) (crew : Crew σ) : Prop :=
  ∃ moves, (∀ move ∈ moves, KeepsRecords store move) ∧ run c moves (opened s) = crew

theorem Crew.Reaches.next {σ : Type} {c : Consumer σ} {store : σ → Store} {s : σ} {crew : Crew σ}
    (reached : Reaches c store s crew) {move : Move σ} (keeps : KeepsRecords store move) :
    Reaches c store s (Crew.next c crew move) := by
  obtain ⟨moves, early, rfl⟩ := reached
  refine ⟨moves ++ [move], List.forall_mem_append.2 ⟨early, by simpa using keeps⟩, ?_⟩
  rw [run_append, run_cons, run_nil]

namespace Exchange

variable {σ : Type}

/-- The messages sent so far. -/
def messages (log : List Incident) : List Message := log.filterMap Incident.message?

theorem mem_messages_iff {log : List Incident} {m : Message} :
    m ∈ messages log ↔ ∃ id, .sent id m ∈ log := by
  rw [messages, List.mem_filterMap]
  constructor
  · rintro ⟨e, there, told⟩
    cases e with
    | sent id other =>
      obtain rfl := Option.some.inj told
      exact ⟨id, there⟩
    | _ => cases told
  · rintro ⟨id, sent⟩
    exact ⟨_, sent, rfl⟩

theorem mem_messages_append {log : List Incident} {m : Message} (sent : m ∈ messages log) (es : List Incident) :
    m ∈ messages (log ++ es) := by
  rw [messages, List.filterMap_append]
  exact List.mem_append_left _ sent

/-- An exchange on a store that nobody else writes to, and all that happened so far. The store is told once, at
first or later, to fail a number of writes. -/
inductive Serves (setup : Setup σ) (store : σ → Store) (s : σ) : Nat → ExchangeRun σ → List Incident → Prop
  | start (capacity : Nat) : Serves setup store s (store s).failingWrites (.start s (.ofCapacity capacity)) []
  | receive {f : Nat} {run : ExchangeRun σ} {log : List Incident} (before : Serves setup store s f run log) :
    Serves setup store s f (run.receive setup) log
  | sent {f : Nat} {run after : ExchangeRun σ} {m : Message} {log : List Incident}
    (before : Serves setup store s f run log) (accepted : run.send m = (.ok (), after)) :
    Serves setup store s f after (log ++ [.sent run.nextId m])
  | told {f : Nat} {run : ExchangeRun σ} {log : List Incident} (before : Serves setup store s 0 run log)
    {g : σ → σ} (tells : ∀ t, store (g t) = (store t).failNextWrites f) :
    Serves setup store s f (run.changeStore setup g) log
  | hungUp {f : Nat} {run : ExchangeRun σ} {log : List Incident} (before : Serves setup store s f run log) :
    Serves setup store s f (run.hangUp setup) log
  /-- Time passes. -/
  | passed {f : Nat} {run after : ExchangeRun σ} {log : List Incident} (before : Serves setup store s f run log)
    (later : run.now ≤ after.now) (shared : after.shared = run.shared) (nextId : after.nextId = run.nextId)
    (tasks : after.tasks.Perm run.tasks) : Serves setup store s f after log
  /-- A task that can go on makes a step. -/
  | stepped {f : Nat} {run after : ExchangeRun σ} {log : List Incident} {id : Nat} {job : Job}
    {rest : List (Nat × Job)} (before : Serves setup store s f run log)
    (among : run.tasks.Perm ((id, job) :: rest))
    (ready : (system setup).ready run.now run.shared id job = true) (now : after.now = run.now)
    (shared : after.shared = ((system setup).step run.now run.shared id job).shared)
    (nextId : after.nextId =
      run.nextId + ((system setup).step run.now run.shared id job).spawned.length)
    (tasks : after.tasks.Perm
      (((system setup).step run.now run.shared id job).next.toList.map (id, ·) ++ rest ++
        ((system setup).step run.now run.shared id job).spawned.mapIdx
          fun i task => (run.nextId + i, task))) :
    Serves setup store s f after (log ++ incidents run.shared after.shared id job)

variable {setup : Setup σ} {store : σ → Store} {s : σ} {f : Nat} {run after : ExchangeRun σ}
  {log : List Incident}

theorem Serves.unfolds (serves : Serves setup store s f run log) : Unfolds setup run log := by
  induction serves with
  | start capacity => exact .start s capacity
  | receive _ ih => exact ih.receive
  | sent _ accepted ih => exact ih.sent accepted
  | told _ _ ih => exact ih.changed _
  | hungUp _ ih => exact ih.hungUp
  | passed _ _ shared nextId tasks ih => exact ih.passed shared nextId tasks
  | stepped _ among ready _ shared nextId tasks ih => exact ih.stepped among ready shared nextId tasks

theorem messages_incidents (before after : Exchange σ) (id : Nat) (job : Job) :
    messages (incidents before after id job) = [] := by
  refine List.filterMap_eq_nil_iff.2 fun e there => ?_
  have told : messages (reported job) = [] := by
    unfold reported
    split
    · split <;> rfl
    · rfl
  simp only [incidents, List.mem_append] at there
  rcases there with ((delivered | given) | answered) | shelved
  · obtain ⟨d, -, rfl⟩ := List.mem_map.1 delivered
    rfl
  · exact List.filterMap_eq_nil_iff.1 told e given
  · obtain ⟨reply, -, rfl⟩ := List.mem_map.1 answered
    rfl
  · obtain ⟨letter, -, rfl⟩ := List.mem_map.1 shelved
    rfl

/-- Tasks send no messages. -/
theorem Serves.runUntil {stop : ExchangeRun σ → Bool} {fuel : Nat} (serves : Serves setup store s f run log)
    (ran : Schedule.runUntil (system setup) stop fuel run = some after) :
    ∃ all, Serves setup store s f after all ∧ messages all = messages log := by
  refine Schedule.of_runUntil (fun t => ∃ all, Serves setup store s f t all ∧ messages all = messages log)
    (fun t later goes => ?_) ⟨log, serves, rfl⟩ ran
  rintro ⟨all, serves, same⟩
  cases goes with
  | passed now shared nextId tasks => exact ⟨all, serves.passed now shared nextId tasks, same⟩
  | stepped among ready now shared nextId tasks =>
    refine ⟨_, serves.stepped among ready now shared nextId tasks, ?_⟩
    rw [messages, List.filterMap_append, ← messages, ← messages, messages_incidents, List.append_nil, same]

/-! ### Who is at work -/

/-- The dispatch of a worker that has not reported yet. -/
def dispatch? : Nat × Job → Option (Nat × Dispatch)
  | (id, .worker w) =>
    match w.phase with
    | .releasing => none
    | _ => some (id, w.dispatch)
  | _ => none

/-- A worker reports what its dispatch gave. -/
def Honest : Job → Prop
  | .worker w => ∀ result, w.phase = .settling result → w.dispatch.result? = some result
  | _ => True

/-- A step leaves all other workers as honest as they were. -/
theorem honest_of_perm {tasks tasks' rest : List (Nat × Job)} {task : Nat × Job} (news : List (Nat × Job))
    (honest : ∀ task ∈ tasks, Honest task.2) (among : tasks.Perm (task :: rest))
    (perm : tasks'.Perm (news ++ rest)) (new : ∀ task ∈ news, Honest task.2) :
    ∀ task ∈ tasks', Honest task.2 := by
  intro task there
  rcases List.mem_append.1 (perm.mem_iff.1 there) with changed | same
  · exact new task changed
  · exact honest task (among.mem_iff.2 (List.mem_cons_of_mem _ same))

theorem honest_of_eq {w : Worker} {result : DispatchResult} (phase : w.phase = .settling result)
    (given : w.dispatch.result? = some result) : Honest (.worker w) := by
  intro other settling
  obtain rfl := Worker.Phase.settling.inj (phase.symm.trans settling)
  exact given

/-- The workers are a crew: its dispatches are theirs and those of workers that have reported, the store and
the counters are the same, and every failure told is met by a dispatch or still to come. -/
structure Staffed (setup : Setup σ) (store : σ → Store) (s : σ) (f : Nat) (run : ExchangeRun σ)
    (log : List Incident) (crew : Crew σ) (ended : List (Nat × Dispatch)) : Prop where
  reached : Crew.Reaches setup.consumer store s crew
  now : crew.now = run.now
  held : crew.desk.store = run.shared.desk.store
  stats : crew.desk.stats = run.shared.desk.stats
  dispatches : crew.dispatches.entries.Perm (run.tasks.filterMap dispatch? ++ ended)
  fresh : ∀ entry ∈ crew.dispatches.entries, entry.1 < run.nextId
  known : ∀ entry ∈ crew.dispatches.entries, entry.2.message ∈ messages log
  reported : ended.map (fun entry => (entry.2.message, entry.2.result?)) =
    (log.filterMap Incident.result?).map fun report => (report.1, some report.2)
  honest : ∀ task ∈ run.tasks, Honest task.2
  failures : crew.count (·.isFailed) + (store crew.desk.store).failingWrites = f
  withinClock : run.shared.beyondClock = false

variable {crew : Crew σ} {ended : List (Nat × Dispatch)}

theorem staffed_start (setup : Setup σ) (store : σ → Store) (s : σ) (capacity : Nat) :
    Staffed setup store s (store s).failingWrites (.start s (.ofCapacity capacity)) [] (Crew.opened s) [] where
  reached := ⟨[], by simp, rfl⟩
  now := rfl
  held := rfl
  stats := rfl
  dispatches := .nil
  fresh _ there := by cases there
  known _ there := by cases there
  reported := rfl
  honest := by simp [Schedule.tasks, ExchangeRun.start]
  failures := Nat.zero_add _
  withinClock := rfl

/-- What leaves store, counters and dispatches alone, while time may pass. -/
theorem Staffed.keep (staffed : Staffed setup store s f run log crew ended) {es : List Incident}
    (silent : es.filterMap Incident.result? = []) (later : run.now ≤ after.now)
    (nextId : run.nextId ≤ after.nextId) (held : after.shared.desk.store = run.shared.desk.store)
    (stats : after.shared.desk.stats = run.shared.desk.stats)
    (tasks : (after.tasks.filterMap dispatch?).Perm (run.tasks.filterMap dispatch?))
    (honest : ∀ task ∈ after.tasks, Honest task.2)
    (clock : after.shared.beyondClock = run.shared.beyondClock) :
    ∃ crew ended, Staffed setup store s f after (log ++ es) crew ended := by
  refine ⟨Crew.next setup.consumer crew (.pass (after.now - run.now)), ended, ?_⟩
  constructor
  · exact staffed.reached.next trivial
  · change crew.now + (after.now - run.now) = after.now
    rw [staffed.now]
    exact Nat.add_sub_cancel' later
  · exact staffed.held.trans held.symm
  · exact staffed.stats.trans stats.symm
  · exact staffed.dispatches.trans (tasks.symm.append_right _)
  · exact fun entry there => Nat.lt_of_lt_of_le (staffed.fresh entry there) nextId
  · exact fun entry there => mem_messages_append (staffed.known entry there) es
  · rw [List.filterMap_append, silent, List.append_nil]
    exact staffed.reported
  · exact honest
  · exact staffed.failures
  · exact clock.trans staffed.withinClock

/-- Tasks without dispatches come, and time may pass. -/
theorem Staffed.aside (staffed : Staffed setup store s f run log crew ended) (extra : List (Nat × Job))
    (idle : ∀ task ∈ extra, dispatch? task = none ∧ Honest task.2) (tasks : after.tasks.Perm (run.tasks ++ extra))
    {es : List Incident} (silent : es.filterMap Incident.result? = []) (later : run.now ≤ after.now)
    (nextId : run.nextId ≤ after.nextId) (desk : after.shared.desk = run.shared.desk)
    (clock : after.shared.beyondClock = run.shared.beyondClock) :
    ∃ crew ended, Staffed setup store s f after (log ++ es) crew ended := by
  have nobody : extra.filterMap dispatch? = [] :=
    List.filterMap_eq_nil_iff.2 fun task there => (idle task there).1
  refine staffed.keep silent later nextId (by rw [desk]) (by rw [desk]) ?_ (fun task there => ?_) clock
  · simpa [nobody] using tasks.filterMap dispatch?
  · rcases List.mem_append.1 (tasks.mem_iff.1 there) with old | new
    · exact staffed.honest task old
    · exact (idle task new).2

/-- The store is told to fail writes, which it was not before. -/
theorem Staffed.told (staffed : Staffed setup store s 0 run log crew ended) {g : σ → σ}
    (tells : ∀ t, store (g t) = (store t).failNextWrites f) :
    Staffed setup store s f (run.changeStore setup g) log (Crew.next setup.consumer crew (.poke g)) ended := by
  have tasks : (run.changeStore setup g).tasks.Perm run.tasks := Schedule.tasks_wake ..
  have none_ := staffed.failures
  constructor
  · have kept (t : σ) : (store (g t)).records = (store t).records := by
      rw [tells]
      rfl
    exact staffed.reached.next kept
  · exact staffed.now
  · exact congrArg g staffed.held
  · exact staffed.stats
  · exact staffed.dispatches.trans ((tasks.filterMap _).symm.append_right _)
  · exact staffed.fresh
  · exact staffed.known
  · exact staffed.reported
  · exact fun task there => staffed.honest task (tasks.mem_iff.1 there)
  · change crew.count (·.isFailed) + (store (g crew.desk.store)).failingWrites = f
    rw [tells, Nat.eq_zero_of_add_eq_zero_right none_]
    exact Nat.zero_add f
  · exact staffed.withinClock

/-! ### What a step does to the crew -/

section Step

variable (on : setup.consumer.OnStore store) (staffed : Staffed setup store s f run log crew ended)
  (taken : ∀ m ∈ messages log, setup.consumer.registry.TakesFreely m) {id : Nat} {w later : Worker}
  {rest : List (Nat × Job)} {es : List Incident}

theorem dispatch?_worker (id : Nat) (still : w.phase ≠ .releasing) :
    dispatch? (id, .worker w) = some (id, w.dispatch) := by
  unfold dispatch?
  cases phase : w.phase <;> simp_all

include staffed in
theorem Staffed.get?_of_worker (there : (id, .worker w) ∈ run.tasks) (still : w.phase ≠ .releasing) :
    crew.dispatches.get? id = some w.dispatch := by
  rw [SortedMap.get?_eq_some_iff, staffed.dispatches.mem_iff]
  exact List.mem_append_left _ (List.mem_filterMap.2 ⟨_, there, dispatch?_worker id still⟩)

include staffed in
/-- The dispatch of a worker among the others, and in its place another. -/
theorem Staffed.entries_of_worker (among : run.tasks.Perm ((id, .worker w) :: rest))
    (still : w.phase ≠ .releasing) :
    crew.dispatches.entries.Perm ((id, w.dispatch) :: (rest.filterMap dispatch? ++ ended)) ∧
      ∀ d, (crew.dispatches.insert id d).entries.Perm ((id, d) :: (rest.filterMap dispatch? ++ ended)) := by
  obtain ⟨others, before, insert⟩ :=
    SortedMap.exists_entries_insert_perm (staffed.get?_of_worker (among.mem_iff.2 List.mem_cons_self) still)
  have working := among.filterMap dispatch?
  rw [List.filterMap_cons_some (dispatch?_worker id still)] at working
  have all := staffed.dispatches.trans (working.append_right ended)
  exact ⟨all, fun d => (insert d).trans ((before.symm.trans all).cons_inv.cons _)⟩

include on staffed taken

theorem Staffed.steady {d : Dispatch} (found : crew.dispatches.get? id = some d) :
    setup.consumer.registry.TakesFreely d.message ∧ d.phase.Fits setup.consumer.registry d.message ∧
      d.Steady := by
  have free := taken _ (staffed.known _ (SortedMap.get?_eq_some_iff.1 found))
  obtain ⟨moves, -, rfl⟩ := staffed.reached
  obtain ⟨fits, steady⟩ := (Dispatch.kept_steady on).of_get? found
  exact ⟨free, fits, steady free⟩

/-- A worker's dispatch makes its step. -/
theorem Staffed.dispatched (among : run.tasks.Perm ((id, .worker w) :: rest)) (going : w.phase = .dispatching)
    (ready : w.dispatch.ready run.now = true)
    (dispatch : later.dispatch = (w.dispatch.step setup.consumer run.now run.shared.desk).2)
    (phase : later.phase = .dispatching ∨
      ∃ result, later.dispatch.phase = .done result ∧ later.phase = .settling result)
    (now : after.now = run.now) (nextId : after.nextId = run.nextId)
    (shared : after.shared =
      { run.shared with desk := (w.dispatch.step setup.consumer run.now run.shared.desk).1 })
    (tasks : after.tasks.Perm ((id, .worker later) :: rest)) (silent : es.filterMap Incident.result? = []) :
    ∃ crew ended, Staffed setup store s f after (log ++ es) crew ended := by
  have found := staffed.get?_of_worker (among.mem_iff.2 List.mem_cons_self) (by simp [going])
  obtain ⟨free, fits, steady⟩ := staffed.steady on taken found
  obtain ⟨before, insert⟩ := staffed.entries_of_worker among (by simp [going])
  have still : later.phase ≠ .releasing := by
    rcases phase with going | ⟨result, -, settling⟩ <;> simp [*]
  -- letters aside, the desk of the crew is the one that the worker has
  obtain ⟨stores, same⟩ := w.dispatch.step_congr setup.consumer run.now staffed.held
  have stats := w.dispatch.stats_congr setup.consumer run.now staffed.stats
  rw [← staffed.now] at ready
  have next := Crew.next_step_of_ready setup.consumer found ready
  rw [staffed.now, same, ← dispatch] at next
  have entries : (Crew.next setup.consumer crew (.step id)).dispatches.entries.Perm
      ((id, later.dispatch) :: (rest.filterMap dispatch? ++ ended)) := next ▸ insert later.dispatch
  refine ⟨Crew.next setup.consumer crew (.step id), ended, ?_⟩
  constructor
  · exact staffed.reached.next trivial
  · rw [next, now]
  · rw [next, shared]
    exact stores
  · rw [next, shared]
    exact stats
  · have working := tasks.filterMap dispatch?
    rw [List.filterMap_cons_some (dispatch?_worker id still)] at working
    exact entries.trans (working.symm.append_right ended)
  · intro entry there
    rw [nextId]
    rcases List.mem_cons.1 (entries.mem_iff.1 there) with rfl | other
    · exact staffed.fresh (id, w.dispatch) (before.mem_iff.2 List.mem_cons_self)
    · exact staffed.fresh entry (before.mem_iff.2 (List.mem_cons_of_mem _ other))
  · intro entry there
    refine mem_messages_append ?_ es
    rcases List.mem_cons.1 (entries.mem_iff.1 there) with rfl | other
    · have message := staffed.known (id, w.dispatch) (before.mem_iff.2 List.mem_cons_self)
      simpa [dispatch] using message
    · exact staffed.known entry (before.mem_iff.2 (List.mem_cons_of_mem _ other))
  · rw [List.filterMap_append, silent, List.append_nil]
    exact staffed.reported
  · refine honest_of_perm [(id, .worker later)] staffed.honest among tasks ?_
    rw [List.forall_mem_singleton]
    rcases phase with dispatching | ⟨result, done, settling⟩
    · simp [Honest, dispatching]
    · exact honest_of_eq settling (by simp [Dispatch.result?, done])
  · have met := Dispatch.failures_step on run.now crew.desk free fits steady.1
    have counted := Crew.count_step found (·.isFailed)
      (w.dispatch.step setup.consumer run.now crew.desk).1 later.dispatch
    have total := staffed.failures
    rw [same, ← dispatch] at met
    rw [staffed.now] at counted
    rw [next]
    dsimp only at counted ⊢
    omega
  · rw [shared]
    exact staffed.withinClock

omit on taken

/-- A new worker begins, under a number that no worker had. -/
theorem Staffed.handed {m : Message} (sent : m ∈ messages log) (now : after.now = run.now)
    (nextId : after.nextId = run.nextId + 1) (held : after.shared.desk.store = run.shared.desk.store)
    (stats : after.shared.desk.stats = run.shared.desk.stats)
    (tasks : (after.tasks.filterMap dispatch?).Perm
      ((run.nextId, { message := m }) :: run.tasks.filterMap dispatch?))
    (honest : ∀ task ∈ after.tasks, Honest task.2)
    (clock : after.shared.beyondClock = run.shared.beyondClock) (silent : es.filterMap Incident.result? = []) :
    ∃ crew ended, Staffed setup store s f after (log ++ es) crew ended := by
  have free : crew.dispatches.get? run.nextId = none := by
    cases found : crew.dispatches.get? run.nextId with
    | none => rfl
    | some d => exact absurd (staffed.fresh _ (SortedMap.get?_eq_some_iff.1 found)) (Nat.lt_irrefl _)
  have next : Crew.next setup.consumer crew (.receive run.nextId m) =
      { crew with dispatches := crew.dispatches.insert run.nextId { message := m } } := by
    simp [Crew.next, free]
  have entries : (Crew.next setup.consumer crew (.receive run.nextId m)).dispatches.entries.Perm
      ((run.nextId, { message := m }) :: crew.dispatches.entries) :=
    next ▸ SortedMap.entries_insert_perm_of_none free _
  refine ⟨Crew.next setup.consumer crew (.receive run.nextId m), ended, ?_⟩
  constructor
  · exact staffed.reached.next trivial
  · rw [next, now]
    exact staffed.now
  · rw [next, held]
    exact staffed.held
  · rw [next, stats]
    exact staffed.stats
  · exact entries.trans ((staffed.dispatches.cons _).trans (tasks.symm.append_right ended))
  · intro entry there
    rw [nextId]
    rcases List.mem_cons.1 (entries.mem_iff.1 there) with rfl | other
    · exact Nat.lt_succ_self _
    · exact Nat.lt_succ_of_lt (staffed.fresh entry other)
  · intro entry there
    refine mem_messages_append ?_ es
    rcases List.mem_cons.1 (entries.mem_iff.1 there) with rfl | other
    · exact sent
    · exact staffed.known entry other
  · rw [List.filterMap_append, silent, List.append_nil]
    exact staffed.reported
  · exact honest
  · rw [next, Crew.count_receive free]
    exact staffed.failures
  · exact clock.trans staffed.withinClock

/-- A worker reports what its dispatch gave. -/
theorem Staffed.settled {result : DispatchResult} (among : run.tasks.Perm ((id, .worker w) :: rest))
    (phase : w.phase = .settling result) (released : later.phase = .releasing) (now : after.now = run.now)
    (nextId : after.nextId = run.nextId) (desk : after.shared.desk = run.shared.desk)
    (tasks : after.tasks.Perm ((id, .worker later) :: rest))
    (clock : after.shared.beyondClock = run.shared.beyondClock)
    (told : es.filterMap Incident.result? = [(w.dispatch.message, result)]) :
    Staffed setup store s f after (log ++ es) crew (ended ++ [(id, w.dispatch)]) := by
  constructor
  · exact staffed.reached
  · exact staffed.now.trans now.symm
  · rw [desk]
    exact staffed.held
  · rw [desk]
    exact staffed.stats
  · have left := tasks.filterMap dispatch?
    rw [List.filterMap_cons_none (by simp [dispatch?, released])] at left
    refine (staffed.entries_of_worker among (by simp [phase])).1.trans ?_
    rw [← List.append_assoc]
    exact (List.perm_append_singleton ..).symm.trans ((left.symm.append_right ended).append_right _)
  · rw [nextId]
    exact staffed.fresh
  · exact fun entry there => mem_messages_append (staffed.known entry there) es
  · have ended_ := staffed.honest _ (among.mem_iff.2 List.mem_cons_self) result phase
    rw [List.filterMap_append, told, List.map_append, List.map_append, staffed.reported]
    simp [ended_]
  · exact honest_of_perm [(id, .worker later)] staffed.honest among tasks
      (by simp [Honest, released])
  · exact staffed.failures
  · exact clock.trans staffed.withinClock

end Step

/-- A courier leaves store, counters and clock alone, and no dispatch ends by it. -/
theorem courier_spares {retry : Retry} {x after : Exchange σ} {id : Nat} {m : Message} {phase : Courier.Phase}
    {next : Option Courier.Phase} {es : List Post.Event} (steps : Post.Steps retry x id m phase after next es) :
    after.desk.store = x.desk.store ∧ after.desk.stats = x.desk.stats ∧ after.beyondClock = x.beyondClock ∧
      (es.filterMap (incident? id)).filterMap Incident.result? = [] := by
  cases steps <;> exact ⟨rfl, rfl, rfl, rfl⟩

/-- A dispatch that does not wait does not go beyond the clock. -/
theorem beyondClock_step {now : Instant} {x : Exchange σ} {id : Nat} {job : Job}
    (ready : (system setup).ready now x id job = true)
    (within : ∀ w, job = .worker w → w.phase = .dispatching →
      (w.dispatch.step setup.consumer now x.desk).2.phase ≠ .beyondClock) :
    ((system setup).step now x id job).shared.beyondClock = x.beyondClock := by
  cases job with
  | courier m phase =>
    have steps : Post.Steps setup.retry x id m phase (courierStep setup.retry now x id m phase).1
        (courierStep setup.retry now x id m phase).2 _ := Post.steps_courierStep ready rfl
    exact (courier_spares steps).2.2.1
  | receiver r =>
    cases r with
    | receiving =>
      simp only [system, receiverStep]
      cases x.line.pop? <;> rfl
    | _ => rfl
  | worker w =>
    simp only [system, workerStep]
    cases phase : w.phase with
    | dispatching =>
      cases decided : w.dispatch.result? with
      | some result => rfl
      | none =>
        dsimp only
        cases reached : (w.dispatch.step setup.consumer now x.desk).2.phase with
        | beyondClock => exact absurd reached (within w rfl phase)
        | _ => rfl
    | settling result => cases w.label <;> cases w.replyTo <;> rfl
    | releasing => rfl
  | timer until_ => rfl

/-- What the receiver has was sent. -/
theorem Ledger.sent_of_holding (ledger : Ledger setup run log) {n : Nat} {d : Delivery}
    (there : (n, .receiver (.holding d)) ∈ run.tasks) : d.message ∈ messages log := by
  obtain ⟨id, own⟩ := Option.ne_none_iff_exists'.1 (ledger.attached _ there)
  obtain ⟨places, standing, journey⟩ := ledger.journeys id
  have held : .receiver d ∈ places.holders :=
    standing.holders.mem_iff.1 (List.mem_filterMap.2 ⟨_, there, if_pos own⟩)
  have alone : places.holders = [.receiver d] := by
    generalize Account.of id log = account at journey
    cases journey <;> simp_all
  obtain ⟨errors, -, -, account⟩ := journey.taken_of_holders alone
  have sent : d.message ∈ (Account.of id log).sent := account ▸ List.mem_singleton_self _
  exact mem_messages_iff.2 ⟨id, Account.mem_sent_iff.1 sent⟩

section Acts

variable {id : Nat} {job : Job} {rest : List (Nat × Job)} {x : Exchange σ} {next : Option Job}
  {spawned : List Job} {es : List Incident}

/-- The dispatches of the crew do not wait, so none goes beyond the clock. -/
theorem Staffed.beyondClock_eq (on : setup.consumer.OnStore store)
    (staffed : Staffed setup store s f run log crew ended)
    (taken : ∀ m ∈ messages log, setup.consumer.registry.TakesFreely m) (there : (id, job) ∈ run.tasks)
    (ready : (system setup).ready run.now run.shared id job = true) :
    ((system setup).step run.now run.shared id job).shared.beyondClock = run.shared.beyondClock := by
  refine beyondClock_step ready fun w equal going beyond => ?_
  subst equal
  have found := staffed.get?_of_worker there (by simp [going])
  obtain ⟨free, -, steady⟩ := staffed.steady on taken found
  have goes := (Dispatch.step_of_not_waits free.not_waits steady.1 run.now run.shared.desk).1
  simp [beyond, Dispatch.Phase.IsWaiting] at goes

/-- A task that has no dispatch makes its step. -/
theorem Staffed.idle (staffed : Staffed setup store s f run log crew ended)
    (among : run.tasks.Perm ((id, job) :: rest)) (before : dispatch? (id, job) = none)
    (tasks : after.tasks.Perm (next.toList.map (id, ·) ++ rest ++
      ([] : List Job).mapIdx fun i task => (run.nextId + i, task)))
    (still : ∀ job ∈ next, dispatch? (id, job) = none ∧ Honest job) (silent : es.filterMap Incident.result? = [])
    (now : after.now = run.now) (nextId : after.nextId = run.nextId)
    (held : after.shared.desk.store = run.shared.desk.store)
    (stats : after.shared.desk.stats = run.shared.desk.stats)
    (clock : after.shared.beyondClock = run.shared.beyondClock) :
    ∃ crew ended, Staffed setup store s f after (log ++ es) crew ended := by
  rw [List.mapIdx_nil, List.append_nil] at tasks
  have others := among.filterMap dispatch?
  have left := tasks.filterMap dispatch?
  rw [List.filterMap_cons_none before] at others
  rw [List.filterMap_append] at left
  have nobody : (next.toList.map (id, ·)).filterMap dispatch? = [] := by
    cases next with
    | none => rfl
    | some job => simp [(still job rfl).1]
  rw [nobody, List.nil_append] at left
  refine staffed.keep silent (Nat.le_of_eq now.symm) (Nat.le_of_eq nextId.symm) held stats
    (left.trans others.symm) (honest_of_perm _ staffed.honest among tasks fun task mine => ?_) clock
  cases next with
  | none => cases mine
  | some job =>
    obtain rfl := List.mem_singleton.1 mine
    exact (still job rfl).2

/-- The crew goes along with whatever a task does. -/
theorem Staffed.acts (on : setup.consumer.OnStore store) (ledger : Ledger setup run log)
    (staffed : Staffed setup store s f run log crew ended)
    (taken : ∀ m ∈ messages log, setup.consumer.registry.TakesFreely m)
    (among : run.tasks.Perm ((id, job) :: rest))
    (ready : (system setup).ready run.now run.shared id job = true)
    (acts : Acts setup run.now run.shared id job x next spawned es)
    (clock : x.beyondClock = run.shared.beyondClock) (now : after.now = run.now) (shared : after.shared = x)
    (nextId : after.nextId = run.nextId + spawned.length)
    (tasks : after.tasks.Perm (next.toList.map (id, ·) ++ rest ++
      spawned.mapIdx fun i task => (run.nextId + i, task))) :
    ∃ crew ended, Staffed setup store s f after (log ++ es) crew ended := by
  have there : (id, job) ∈ run.tasks := among.mem_iff.2 List.mem_cons_self
  have attached : Attached job := ledger.attached _ there
  cases acts with
  | courier steps =>
    obtain ⟨held, stats, -, silent⟩ := courier_spares steps
    refine staffed.idle among rfl tasks ?_ silent now nextId (by rw [shared, held]) (by rw [shared, stats])
      (by rw [shared, clock])
    simp [dispatch?, Honest]
  | took | drained =>
    exact staffed.idle among rfl tasks (by simp [dispatch?, Honest]) rfl now nextId (by rw [shared])
      (by rw [shared]) (by rw [shared])
  | ended | elapsed =>
    exact staffed.idle among rfl tasks (by simp) rfl now nextId (by rw [shared]) (by rw [shared])
      (by rw [shared])
  | released phase =>
    exact staffed.idle among (by simp [dispatch?, phase]) tasks (by simp) rfl now nextId (by rw [shared])
      (by rw [shared]) (by rw [shared])
  | @handed d =>
    refine staffed.handed (ledger.sent_of_holding there) now nextId (by rw [shared]) (by rw [shared]) ?_ ?_
      (by rw [shared]) rfl
    · have others := among.filterMap dispatch?
      refine (tasks.filterMap dispatch?).trans (.trans ?_ (others.symm.cons _))
      simp [dispatch?, List.filterMap_cons]
    · have changed := tasks.trans (List.perm_append_comm.trans (.of_eq (List.append_assoc ..).symm))
      exact honest_of_perm _ staffed.honest among changed (by simp [Honest])
  | @dispatched w later going label replyTo dispatch phase =>
    refine staffed.dispatched on taken among going (by simpa [system, workerReady, going] using ready)
      dispatch phase now nextId shared (by simpa using tasks) (List.filterMap_eq_nil_iff.2 fun e left => ?_)
    obtain ⟨letter, -, rfl⟩ := List.mem_map.1 left
    rfl
  | lost gone =>
    rw [clock, staffed.withinClock] at gone
    cases gone
  | @found w result going done =>
    replace tasks : after.tasks.Perm ((id, .worker { w with phase := .settling result }) :: rest) := by
      simpa using tasks
    refine staffed.keep rfl (Nat.le_of_eq now.symm) (Nat.le_of_eq nextId.symm) (by rw [shared]) (by rw [shared])
      ?_ ?_ (by rw [shared])
    · refine (tasks.filterMap dispatch?).trans (.trans ?_ (among.filterMap dispatch?).symm)
      simp [dispatch?, going]
    · refine honest_of_perm [(id, .worker { w with phase := .settling result })] staffed.honest among
        tasks ?_
      rw [List.forall_mem_singleton]
      exact honest_of_eq rfl (by simp [Dispatch.result?, done])
  | @settled w result phase unlabelled =>
    refine ⟨crew, ended ++ [(id, w.dispatch)], staffed.settled among phase rfl now nextId ?_
      (by simpa using tasks) (by rw [shared, clock]) ?_⟩
    · rw [shared]
      cases w.replyTo <;> rfl
    · cases w.replyTo <;> simp [Incident.result?, List.filterMap_cons]
  | filed labelled => exact absurd attached.1 labelled

end Acts

theorem now_of_send {m : Message} (accepted : run.send m = (.ok (), after)) : after.now = run.now := by
  unfold ExchangeRun.send at accepted
  split at accepted
  · cases accepted
  · obtain rfl := (Prod.mk.inj accepted).2
    rfl

/-- Whatever happens, the workers are a crew, and no dispatch goes beyond the clock. -/
theorem staffed_of_serves (on : setup.consumer.OnStore store) (keeps : setup.consumer.keepsLetters = true)
    (serves : Serves setup store s f run log)
    (taken : ∀ m ∈ messages log, setup.consumer.registry.TakesFreely m) :
    ∃ crew ended, Staffed setup store s f run log crew ended := by
  induction serves with
  | start capacity => exact ⟨_, _, staffed_start setup store s capacity⟩
  | @receive f run log before ih =>
    obtain ⟨crew, ended, staffed⟩ := ih taken
    rw [← List.append_nil log]
    exact staffed.aside [(run.nextId, .receiver .receiving)] (by simp [dispatch?, Honest])
      (Schedule.tasks_spawn ..) rfl (Nat.le_refl _) (Nat.le_succ _) rfl rfl
  | @sent f run after m log before accepted ih =>
    obtain ⟨crew, ended, staffed⟩ := ih fun m sent => taken m (mem_messages_append sent _)
    obtain ⟨shared, nextId, tasks⟩ := send_eq_ok accepted
    exact staffed.aside _ (by simp [dispatch?, Honest]) tasks rfl (Nat.le_of_eq (now_of_send accepted).symm)
      (by rw [nextId]; exact Nat.le_succ _) (by rw [shared]) (by rw [shared])
  | told before tells ih =>
    obtain ⟨crew, ended, staffed⟩ := ih taken
    exact ⟨_, _, staffed.told tells⟩
  | @hungUp f run log before ih =>
    obtain ⟨crew, ended, staffed⟩ := ih taken
    have tasks : (run.hangUp setup).tasks.Perm run.tasks := Schedule.tasks_wake ..
    rw [← List.append_nil log]
    exact staffed.aside [] (by simp) (by rwa [List.append_nil]) rfl (Nat.le_refl _) (Nat.le_refl _) rfl rfl
  | @passed f run after log before later shared nextId tasks ih =>
    obtain ⟨crew, ended, staffed⟩ := ih taken
    rw [← List.append_nil log]
    exact staffed.aside [] (by simp) (by rwa [List.append_nil]) rfl later (Nat.le_of_eq nextId.symm)
      (by rw [shared]) (by rw [shared])
  | @stepped f run after log id job rest before among ready now shared nextId tasks ih =>
    have earlier (m : Message) (sent : m ∈ messages log) := taken m (mem_messages_append sent _)
    obtain ⟨crew, ended, staffed⟩ := ih earlier
    have ledger := ledger_of_unfolds keeps before.unfolds staffed.withinClock
    refine staffed.acts on ledger earlier among ready (shared ▸ acts_step ready) ?_ now rfl nextId tasks
    rw [shared]
    exact staffed.beyondClock_eq on earlier (among.mem_iff.2 List.mem_cons_self) ready

end Exchange

end Replica

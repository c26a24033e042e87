import Mathlib.Algebra.GroupWithZero.Nat
import Replica.Proofs.Ledger
import Replica.Proofs.Pace
import Replica.Proofs.Sequence
/-! Replay of all messages at once. They may arrive in any order: a message waits until what it refers to is
there, and in a file whose messages refer only to each other somebody can always go on. So the run ends with
every message applied, and with the same records whatever the order was. -/
namespace Replica

namespace Exchange

variable {setup : Setup Store} {file : List Message} {s t : ExchangeRun Store} {log : List Incident} {n : Nat}
  {job : Job} {rest : List (Nat × Job)}

/-- What happened so far: the messages of the file were sent, and each dispatch that ended wrote the first record
of its entity. -/
structure Chronicle (setup : Setup Store) (file : List Message) (s : ExchangeRun Store) (log : List Incident) :
    Prop where
  unfolds : Unfolds setup s log
  sent : ∀ m ∈ file, ∃ id, .sent id m ∈ log
  landed : ∀ owner m result, .dispatched owner m result ∈ log → result = landed

namespace Chronicle

theorem regroup (chronicle : Chronicle setup file s log) (shared : t.shared = s.shared) (nextId : t.nextId = s.nextId)
    (tasks : t.tasks.Perm s.tasks) : Chronicle setup file t log :=
  { chronicle with unfolds := chronicle.unfolds.passed shared nextId tasks }

/-- Only workers report how a dispatch ended. -/
theorem mem_reported {x after : Exchange Store} {owner : Option Nat} {m : Message} {result : DispatchResult}
    (told : .dispatched owner m result ∈ incidents x after n job) : .dispatched owner m result ∈ reported job := by
  simp only [incidents, List.mem_append, List.mem_map] at told
  rcases told with ((⟨d, -, other⟩ | told) | ⟨reply, -, other⟩) | ⟨letter, -, other⟩
  · cases other
  · exact told
  · cases other
  · cases other

theorem steps (chronicle : Chronicle setup file s log) (steps : Schedule.Steps (system setup) s t n job rest)
    (landed : ∀ owner m result, .dispatched owner m result ∈ reported job → result = Exchange.landed) :
    Chronicle setup file t (log ++ incidents s.shared t.shared n job) where
  unfolds := chronicle.unfolds.stepped steps.among steps.ready steps.shared steps.nextId steps.tasks
  sent m there := by
    obtain ⟨id, sent⟩ := chronicle.sent m there
    exact ⟨id, List.mem_append_left _ sent⟩
  landed owner m result told := by
    rcases List.mem_append.1 told with old | new
    · exact chronicle.landed owner m result old
    · exact landed owner m result (mem_reported new)

end Chronicle

/-- A task that waits for the clock goes on when its time has come. -/
theorem ready_of_wakeAt {now time : Instant} {x : Exchange Store}
    (due : (system setup).wakeAt job = some time) (reached : time ≤ now) :
    (system setup).ready now x n job = true := by
  cases job with
  | courier m phase =>
    cases phase with
    | resting until_ n =>
      obtain rfl := Option.some.inj due
      exact decide_eq_true reached
    | _ => cases due
  | receiver r => cases due
  | worker w =>
    obtain ⟨⟨m, phase⟩, stands, replyTo, label⟩ := w
    cases stands with
    | dispatching =>
      cases phase with
      | pausing until_ wait =>
        obtain rfl := Option.some.inj due
        exact decide_eq_true reached
      | _ => cases due
    | _ => cases due
  | timer until_ =>
    obtain rfl := Option.some.inj due
    exact decide_eq_true reached

end Exchange

namespace Replay

open Exchange

variable {setup : Setup Store} {file : List Message} {delay : Nat} {s t : ExchangeRun Store} {items : List Item}
  {item : Item} {r : Receiver} {left : Nat} {m : Message}

/-! ### Sending -/

/-- The messages are sent, and nothing else has happened. -/
structure Loaded (setup : Setup Store) (s : ExchangeRun Store) (items : List Item) : Prop where
  layout : Layout setup.limit s items .receiving
  fresh : ∀ item ∈ items, item.stage = .setOut ∧ item.id < s.nextId
  desk : s.shared.desk = { store := {} }
  now : s.now = 0
  waiting : s.waiting = []
  chronicle : ∃ log, Chronicle setup (items.map (·.message)) s log

theorem loaded_opened (setup : Setup Store) : Loaded setup (opened setup) [] := by
  have line : LineHolds (Line.ofCapacity capacity) [] [] :=
    ⟨.refl _, .refl _, fun some => absurd rfl some, Nat.lt_of_lt_of_le Nat.zero_lt_one (Nat.le_max_right ..), rfl, rfl⟩
  have layout : Layout setup.limit (opened setup) [] .receiving :=
    ⟨.refl _, List.nodup_nil, line, .refl _, .refl _, rfl, rfl, rfl⟩
  have unfolds : Unfolds setup (opened setup) [] := (Unfolds.start ({} : Store) capacity).receive
  refine ⟨layout, ?_, rfl, rfl, rfl, [], unfolds, ?_, ?_⟩
  · intro item there
    cases there
  · intro m there
    cases there
  · intro owner m result there
    cases there

theorem Loaded.send (loaded : Loaded setup s items) (m : Message) :
    Loaded setup (s.send m).2 (⟨s.nextId, m, .setOut⟩ :: items) := by
  obtain ⟨⟨tasks, ids, line, held, replies, outstanding, permits, withinClock⟩, fresh, desk, now, waiting, log,
    unfolds, sent, landed⟩ := loaded
  have accepted : s.send m = (.ok (), (s.send m).2) := by
    simp [ExchangeRun.send, line.open_]
  obtain ⟨shared, nextId, courier⟩ := send_eq_ok accepted
  have more : s.shared.outstanding + 1 = (⟨s.nextId, m, .setOut⟩ :: items).countP Item.hasCourier := by
    rw [outstanding, List.countP_cons_of_pos rfl]
  have workers : (⟨s.nextId, m, .setOut⟩ :: items).countP Item.hasWorker = items.countP Item.hasWorker :=
    List.countP_cons_of_neg (by simp [Item.hasWorker])
  have new : s.nextId ∉ items.map (·.id) := by
    intro among
    obtain ⟨item, inside, same⟩ := List.mem_map.1 among
    exact Nat.lt_irrefl _ (same ▸ (fresh item inside).2)
  have kept : (s.send m).2.now = s.now ∧ (s.send m).2.waiting = s.waiting := by
    simp [ExchangeRun.send, line.open_, Schedule.spawn]
  refine ⟨⟨?_, shared ▸ ⟨List.nodup_cons.2 ⟨new, ids⟩, line, held, replies, more, workers.symm ▸ permits, withinClock⟩⟩,
    ?_, ?_, kept.1.trans now, kept.2.trans waiting, log ++ [.sent s.nextId m], unfolds.sent accepted, ?_, ?_⟩
  · exact courier.trans ((List.perm_append_singleton ..).trans ((tasks.cons _).trans (.swap ..)))
  · rw [nextId]
    refine List.forall_mem_cons.2 ⟨⟨rfl, Nat.lt_succ_self _⟩, fun item inside => ?_⟩
    exact ⟨(fresh item inside).1, Nat.lt_succ_of_lt (fresh item inside).2⟩
  · rw [shared, ← desk]
  · refine List.forall_mem_cons.2 ⟨⟨s.nextId, by simp⟩, fun other inside => ?_⟩
    obtain ⟨id, old⟩ := sent other inside
    exact ⟨id, List.mem_append_left _ old⟩
  · intro owner other result told
    exact landed owner other result (by simpa using told)

theorem Loaded.sendAll (loaded : Loaded setup s items) (messages : List Message) :
    ∃ last items', (∀ fuel, sendAll setup fuel false messages s = some last) ∧ Loaded setup last items' ∧
      (items'.map (·.message)).Perm (messages ++ items.map (·.message)) := by
  induction messages generalizing s items with
  | nil => exact ⟨s, items, fun _ => rfl, loaded, .refl _⟩
  | cons m messages ih =>
    obtain ⟨last, items', sent, loaded, same⟩ := ih (loaded.send m)
    refine ⟨last, items', fun fuel => ?_, loaded, same.trans List.perm_middle⟩
    simpa [Replay.sendAll] using sent fuel

/-! ### Until every message has come to its end -/

/-- A file is under way. -/
structure UnderWay (setup : Setup Store) (file : List Message) (delay : Nat) (items : List Item) (r : Receiver)
    (left : Nat) (s : ExchangeRun Store) : Prop where
  layout : Layout setup.limit s items r
  goesOn : r ≠ .draining
  timely : Timely setup.consumer file delay s.now s.shared.desk items
  chronicle : ∃ log, Chronicle setup file s log
  left : left = (items.map (Item.stepsBefore setup.consumer.registry (horizon file delay) s.now)).sum

/-- Who waits for the clock wakes up. -/
theorem UnderWay.wakes (underWay : UnderWay setup file delay items r left s) (idle : s.running = [])
    (inside : item ∈ items) {k : Nat} {until_ : Instant} {w : DependencyWait}
    (pausing : item.stage = .dispatching k (.pausing until_ w)) :
    until_ ∈ s.waiting.filterMap fun task => (system setup).wakeAt task.2 := by
  have own : item.worker k (.pausing until_ w) .dispatching ∈ s.tasks := by
    refine underWay.layout.tasks.mem_iff.2 (List.mem_cons_of_mem _ (List.mem_flatMap.2 ⟨item, inside, ?_⟩))
    rw [Item.tasks, pausing]
    exact List.mem_pair.2 (.inr rfl)
  rw [Schedule.tasks, idle, List.nil_append] at own
  exact List.mem_filterMap.2 ⟨_, own, rfl⟩

section UnderWay

variable (orderable : Orderable setup.consumer.registry setup.consumer.budget setup.consumer.maxConcurrency file delay)

include orderable

/-- If nobody can go on, everybody waits for the clock or is done with, and not all are done with. -/
theorem UnderWay.pauses (underWay : UnderWay setup file delay items r left s) (busy : allSettled s = false)
    (idle : s.running = []) (parked : s.Parked (system setup)) :
    (∀ item ∈ items, item.stage.Pauses) ∧ ∃ item ∈ items, item.isLanded = false := by
  obtain ⟨layout, goesOn, timely, -, -⟩ := underWay
  have blocked (task : Nat × Job) (there : task ∈ s.tasks) :
      (system setup).ready s.now s.shared task.1 task.2 = false := by
    rw [Schedule.tasks, idle, List.nil_append] at there
    exact parked task there
  have all := timely.messages.length_eq
  rw [List.length_map] at all
  have room : items.length ≤ setup.limit := all ▸ Nat.le_trans orderable.room (Nat.le_max_left ..)
  have waits (item : Item) (inside : item ∈ items) : item.stage.Pauses :=
    timely.pauses inside (layout.idle blocked goesOn room inside)
  refine ⟨waits, ?_⟩
  have some : 0 < items.countP Item.hasCourier := by
    rw [← layout.exchange.outstanding]
    exact Nat.pos_of_ne_zero (by simpa using busy)
  obtain ⟨item, inside, waiting⟩ := List.countP_pos_iff.1 some
  refine ⟨item, inside, ?_⟩
  rcases waits item inside with gone | ⟨k, until_, w, pausing⟩
  · simp [Item.hasCourier, gone] at waiting
  · simp [Item.isLanded, pausing, Stage.isLanded]

theorem UnderWay.later (underWay : UnderWay setup file delay items r left s) (busy : allSettled s = false)
    (idle : s.running = []) (parked : s.Parked (system setup)) {time : Instant}
    (due : s.nextWake (system setup) = some time) :
    UnderWay setup file delay items r left { s with now := max s.now time } := by
  obtain ⟨waits, some⟩ := underWay.pauses orderable busy idle parked
  have timely : Timely _ file delay (max s.now time) _ items :=
    underWay.timely.pass orderable waits some fun item inside k until_ w pausing =>
      (List.min?_eq_some_iff.1 due).2 _ (underWay.wakes idle inside pausing)
  obtain ⟨layout, goesOn, -, ⟨log, chronicle⟩, rfl⟩ := underWay
  refine ⟨⟨layout.tasks, layout.exchange⟩, goesOn, timely, ⟨log, chronicle.regroup rfl rfl (.refl _)⟩, ?_⟩
  refine congrArg List.sum (List.map_congr_left fun item inside => ?_)
  rcases waits item inside with gone | ⟨k, until_, w, pausing⟩
  · simp only [Item.stepsBefore, gone]
    rfl
  · simp only [Item.stepsBefore, pausing]
    rfl

variable (backend : setup.consumer.backend = Store.backend) (attempts : 0 < setup.retry.maxAttempts)

include backend attempts

/-- A step takes one message on. -/
theorem UnderWay.steps {n : Nat} {job : Job} {rest : List (Nat × Job)}
    (underWay : UnderWay setup file delay items r left s)
    (steps : Schedule.Steps (system setup) s t n job rest) :
    ∃ items r, ∃ fewer < left, UnderWay setup file delay items r fewer t := by
  obtain ⟨layout, goesOn, timely, ⟨log, chronicle⟩, rfl⟩ := underWay
  obtain ⟨item, others, r', split, goesOn, stage, advanced, next⟩ :=
    layout.advances goesOn steps attempts fun item inside => timely.fine orderable backend inside
  obtain ⟨timely, less⟩ := (timely.perm split).next orderable backend next
  rw [← steps.now] at timely less
  refine ⟨{ item with stage } :: others, r', _, ?_, advanced, goesOn, timely, ⟨_, chronicle.steps steps ?_⟩, rfl⟩
  · rw [(split.map _).sum_nat, List.map_cons, List.map_cons, List.sum_cons, List.sum_cons, ← steps.now]
    exact Nat.add_lt_add_right less _
  · intro owner m result told
    exact layout.reported_eq steps.mem_tasks told

theorem ends_underWay : Schedule.Ends (system setup) allSettled
    fun left s => ∃ items r, UnderWay setup file delay items r left s where
  wakes now x id job time due reached := ready_of_wakeAt due reached
  regroup left s t underWay now shared nextId tasks := by
    obtain ⟨items, r, ⟨layout, goesOn, timely, ⟨log, chronicle⟩, left⟩⟩ := underWay
    refine ⟨items, r, ⟨tasks.trans layout.tasks, shared ▸ layout.exchange⟩, goesOn, ?_,
      ⟨log, chronicle.regroup shared nextId tasks⟩, now ▸ left⟩
    rw [now, shared]
    exact timely
  lives left s underWay busy idle parked := by
    obtain ⟨items, r, underWay⟩ := underWay
    obtain ⟨waits, item, inside, open_⟩ := underWay.pauses orderable busy idle parked
    intro nobody
    rcases waits item inside with gone | ⟨k, until_, w, pausing⟩
    · simp [Item.isLanded, gone, Stage.isLanded] at open_
    · have among := underWay.wakes idle inside pausing
      rw [List.min?_eq_none_iff.1 nobody] at among
      cases among
  later left s time underWay busy idle parked due := by
    obtain ⟨items, r, underWay⟩ := underWay
    exact ⟨items, r, underWay.later orderable busy idle parked due⟩
  step left s t id job rest underWay busy steps := by
    obtain ⟨items, r, underWay⟩ := underWay
    obtain ⟨items, r, fewer, less, underWay⟩ := underWay.steps orderable backend attempts steps
    exact ⟨fewer, less, items, r, underWay⟩

end UnderWay

theorem Loaded.underWay (loaded : Loaded setup s items) (all : (items.map (·.message)).Perm file) :
    ∃ left, UnderWay setup file delay items .receiving left s := by
  obtain ⟨layout, fresh, desk, now, waiting, log, chronicle⟩ := loaded
  have stage (item : Item) (inside : item ∈ items) : item.stage = .setOut := (fresh item inside).1
  have arriving (item : Item) (inside : item ∈ items) : item.stage.isArriving = true := by
    rw [stage item inside]
    rfl
  have nobody : items.countP (!·.stage.isArriving) = 0 :=
    List.countP_eq_zero.2 fun item inside => by simp [arriving item inside]
  have none : items.countP (·.stage.isCounted) = 0 :=
    List.countP_eq_zero.2 fun item inside => by simp [stage item inside, Stage.isCounted]
  have open_ (item : Item) (inside : item ∈ items) : item.isLanded ≠ true := by
    simp [Item.isLanded, stage item inside, Stage.isLanded]
  refine ⟨_, layout, by simp, ?_, ⟨log, chronicle.unfolds, fun m there => chronicle.sent m (all.mem_iff.2 there),
    chronicle.landed⟩, rfl⟩
  rw [desk, now]
  refine ⟨all, rfl, fun item inside landed => absurd landed (open_ item inside), fun key _ => rfl, ?_, fun _ _ _ => rfl,
    Nat.zero_le _, rfl, ?_⟩
  · intro item inside
    rw [stage item inside]
    trivial
  · rw [nobody, none]

/-- What is left of a file of creations that refer only to each other. -/
structure Mirrors (registry : Registry) (file : List Message) (records : Records) : Prop where
  written : ∀ m ∈ file, SortedMap.get? records m.key = registry.first? m
  absent : ∀ key ∉ file.map Message.key, SortedMap.get? records key = none

theorem Mirrors.eq {registry : Registry} {records others : Records} (mirrors : Mirrors registry file records)
    (mirrors' : Mirrors registry file others) : records = others := by
  refine SortedMap.ext_get? fun key => ?_
  by_cases there : key ∈ file.map Message.key
  · obtain ⟨m, inside, rfl⟩ := List.mem_map.1 there
    rw [mirrors.written m inside, mirrors'.written m inside]
  · rw [mirrors.absent key there, mirrors'.absent key there]

section Settled

variable (underWay : UnderWay setup file delay items r left s) (settled : allSettled s = true)

include underWay settled

theorem UnderWay.gone (inside : item ∈ items) : ∃ w, item.stage = .returning .gone w := by
  have nobody : items.countP Item.hasCourier = 0 := underWay.layout.exchange.outstanding ▸ beq_iff_eq.1 settled
  have without := List.countP_eq_zero.1 nobody item inside
  unfold Item.hasCourier at without
  split at without
  · exact ⟨_, ‹_›⟩
  · exact absurd rfl without

/-- When every message has come to its end, everything is written. -/
theorem UnderWay.mirrors : Mirrors setup.consumer.registry file s.shared.desk.store.records := by
  have timely := underWay.timely
  constructor
  · intro m there
    obtain ⟨item, inside, rfl⟩ := List.mem_map.1 (timely.messages.mem_iff.2 there)
    obtain ⟨w, gone⟩ := underWay.gone settled inside
    exact timely.written item inside (by simp [Item.isLanded, gone, Stage.isLanded])
  · intro key missing
    apply timely.absent key
    intro item inside landed same
    exact missing (List.mem_map.2 ⟨item.message, timely.messages.mem_iff.1 (List.mem_map_of_mem inside), same⟩)

theorem UnderWay.stats : s.shared.desk.stats = { received := file.length, applied := file.length } := by
  have all : items.length = file.length := by
    rw [← underWay.timely.messages.length_eq, List.length_map]
  have received : items.countP (!·.stage.isArriving) = items.length := by
    apply List.countP_eq_length.2
    intro item inside
    obtain ⟨w, gone⟩ := underWay.gone settled inside
    simp [gone, Stage.isArriving]
  have counted : items.countP (·.stage.isCounted) = items.length := by
    apply List.countP_eq_length.2
    intro item inside
    obtain ⟨w, gone⟩ := underWay.gone settled inside
    simp [gone, Stage.isCounted]
  rw [underWay.timely.stats, received, counted, all]

end Settled

/-! ### Until the receiver has finished -/

/-- How many steps the receiver has to make before it has finished. -/
def turnsLeft : Receiver → Nat
  | .receiving => 2
  | .holding _ => 3
  | .draining => 1

/-- All that is left to do is to give the permits back and to finish. -/
structure Remains (setup : Setup Store) (s : ExchangeRun Store) (r : Receiver) (workers : List (Nat × Job)) :
    Prop where
  tasks : s.tasks.Perm ((0, .receiver r) :: workers)
  releasing : ∀ task ∈ workers, ∃ w, task.2 = .worker w ∧ w.phase = .releasing
  free : r.held = []
  queue : s.shared.line.queue = []
  hungUp : s.shared.line.hungUp = true
  permits : s.shared.permits + workers.length = setup.limit

/-- Every message has come to its end, and nobody sends any more. -/
structure WindsUp (setup : Setup Store) (file : List Message) (desk : Desk Store) (left : Nat)
    (s : ExchangeRun Store) : Prop where
  desk : s.shared.desk = desk
  outstanding : s.shared.outstanding = 0
  withinClock : s.shared.beyondClock = false
  chronicle : ∃ log, Chronicle setup file s log
  remains : s.shared.receiverEnd.isSome = true ∨
    ∃ r workers, Remains setup s r workers ∧ left = workers.length + turnsLeft r

theorem length_tasks_of_gone (gone : ∀ item ∈ items, ∃ w, item.stage = .returning .gone w) :
    (items.flatMap Item.tasks).length = items.countP Item.hasWorker := by
  induction items with
  | nil => rfl
  | cons item items ih =>
    obtain ⟨⟨w, stage⟩, others⟩ := List.forall_mem_cons.1 gone
    rw [List.flatMap_cons, List.length_append, ih others, List.countP_cons]
    cases w <;> simp [Item.tasks, Item.hasWorker, stage, Item.returning, Item.releasing, Nat.add_comm]

theorem UnderWay.remains (underWay : UnderWay setup file delay items r left s) (settled : allSettled s = true) :
    Remains setup (s.hangUp setup) r (items.flatMap Item.tasks) := by
  have gone {item : Item} (inside : item ∈ items) := underWay.gone settled inside
  have exchange := underWay.layout.exchange
  constructor
  · exact (Schedule.tasks_wake ..).trans underWay.layout.tasks
  · intro task there
    obtain ⟨item, inside, own⟩ := List.mem_flatMap.1 there
    obtain ⟨w, stage⟩ := gone inside
    rw [Item.tasks, stage] at own
    cases w with
    | none => cases own
    | some n =>
      obtain rfl := List.mem_singleton.1 own
      exact ⟨_, rfl, rfl⟩
  · have nothing : items.filterMap Item.held? = [] := by
      apply List.filterMap_eq_nil_iff.2
      intro item inside
      obtain ⟨w, stage⟩ := gone inside
      simp [Item.held?, stage]
    exact (nothing ▸ exchange.held).nil_eq.symm
  · have nothing : items.filterMap Item.onLine? = [] := by
      apply List.filterMap_eq_nil_iff.2
      intro item inside
      obtain ⟨w, stage⟩ := gone inside
      simp [Item.onLine?, stage]
    exact (nothing ▸ exchange.line.queue).eq_nil
  · rfl
  · rw [length_tasks_of_gone fun item inside => gone inside]
    exact exchange.permits

theorem UnderWay.windsUp (underWay : UnderWay setup file delay items r left s) (settled : allSettled s = true) :
    ∃ left, WindsUp setup file s.shared.desk left (s.hangUp setup) := by
  have remains := underWay.remains settled
  obtain ⟨log, chronicle⟩ := underWay.chronicle
  have hungUp : Chronicle setup file (s.hangUp setup) log := { chronicle with unfolds := chronicle.unfolds.hungUp }
  exact ⟨_, rfl, beq_iff_eq.1 settled, underWay.layout.exchange.withinClock, ⟨log, hungUp⟩,
    .inr ⟨r, _, remains, rfl⟩⟩

section Remains

variable {n : Nat} {job : Job} {rest workers others : List (Nat × Job)} {w : Worker}

/-- The receiver finds that nothing will come any more. -/
theorem Remains.receive (remains : Remains setup s .receiving workers)
    (steps : Schedule.Steps (system setup) s t 0 (.receiver .receiving) rest) :
    t.shared = s.shared ∧ Remains setup t .draining workers := by
  have made : (system setup).step s.now s.shared 0 (.receiver .receiving) =
      { shared := s.shared, next := some (.receiver .draining) } := by
    simp [system, receiverStep, Line.pop?, remains.queue]
  have shared := steps.shared.trans (congrArg Turn.shared made)
  have after := steps.tasks
  have rest := (steps.among.symm.trans remains.tasks).cons_inv
  rw [made] at after
  refine ⟨shared, after.trans ?_, remains.releasing, rfl, shared ▸ remains.queue, shared ▸ remains.hungUp,
    shared ▸ remains.permits⟩
  simpa using rest

/-- A permit is given back. -/
theorem Remains.release (remains : Remains setup s r workers) (phase : w.phase = .releasing)
    (steps : Schedule.Steps (system setup) s t n (.worker w) rest) (split : workers.Perm ((n, .worker w) :: others)) :
    t.shared = { s.shared with permits := s.shared.permits + 1 } ∧ Remains setup t r others := by
  have made : (system setup).step s.now s.shared n (.worker w) =
      { shared := { s.shared with permits := s.shared.permits + 1 }, next := none } := by
    simp [system, workerStep, phase]
  have shared := steps.shared.trans (congrArg Turn.shared made)
  have after := steps.tasks
  have rest : (rest ++ s.waiting).Perm ((0, .receiver r) :: others) :=
    (steps.among.symm.trans (remains.tasks.trans ((split.cons _).trans (.swap ..)))).cons_inv
  have back : s.shared.permits + 1 + others.length = setup.limit := by
    have permits := remains.permits
    rw [split.length_eq, List.length_cons] at permits
    omega
  rw [made] at after
  refine ⟨shared, after.trans ?_, fun task there => ?_, remains.free, shared ▸ remains.queue,
    shared ▸ remains.hungUp, shared ▸ back⟩
  · simpa using rest
  · exact remains.releasing task (split.mem_iff.2 (List.mem_cons_of_mem _ there))

end Remains

section WindsUp

variable {desk : Desk Store}

theorem WindsUp.steps {n : Nat} {job : Job} {rest : List (Nat × Job)} (windsUp : WindsUp setup file desk left s)
    (busy : s.shared.receiverEnd.isSome = false) (steps : Schedule.Steps (system setup) s t n job rest) :
    ∃ fewer < left, WindsUp setup file desk fewer t := by
  obtain ⟨same, outstanding, withinClock, ⟨log, chronicle⟩, ended | ⟨r, workers, remains, rfl⟩⟩ := windsUp
  · cases busy.symm.trans ended
  rcases List.mem_cons.1 (remains.tasks.mem_iff.1 steps.mem_tasks) with own | among
  · obtain ⟨rfl, rfl⟩ := Prod.mk.inj own
    have chronicle := chronicle.steps steps fun _ _ _ told => by cases told
    cases r with
    | receiving =>
      obtain ⟨shared, remains⟩ := remains.receive steps
      exact ⟨_, Nat.lt_succ_self _, shared ▸ same, shared ▸ outstanding, shared ▸ withinClock, ⟨_, chronicle⟩,
        .inr ⟨.draining, workers, remains, rfl⟩⟩
    | holding d => cases remains.free
    | draining =>
      have shared : t.shared = { s.shared with receiverEnd := some s.now } := steps.shared
      exact ⟨0, Nat.succ_pos _, shared ▸ same, shared ▸ outstanding, shared ▸ withinClock, ⟨_, chronicle⟩,
        .inl (shared ▸ rfl)⟩
  · obtain ⟨w, rfl, phase⟩ : ∃ w, job = .worker w ∧ w.phase = .releasing := remains.releasing _ among
    have chronicle := chronicle.steps steps fun owner m result told => by simp [reported, phase] at told
    obtain ⟨before, behind, rfl⟩ := List.append_of_mem among
    obtain ⟨shared, remains⟩ := remains.release phase steps List.perm_middle
    refine ⟨_, ?_, shared ▸ same, shared ▸ outstanding, shared ▸ withinClock, ⟨_, chronicle⟩,
      .inr ⟨r, _, remains, rfl⟩⟩
    simp only [List.length_append, List.length_cons]
    omega

/-- Somebody can go on until the receiver has finished. -/
theorem WindsUp.lives (windsUp : WindsUp setup file desk left s) (busy : s.shared.receiverEnd.isSome = false)
    (idle : s.running = []) (parked : s.Parked (system setup)) : False := by
  obtain ⟨-, -, -, -, ended | ⟨r, workers, ⟨tasks, releasing, free, queue, hungUp, permits⟩, -⟩⟩ := windsUp
  · cases busy.symm.trans ended
  have blocked (task : Nat × Job) (there : task ∈ (0, .receiver r) :: workers) :
      (system setup).ready s.now s.shared task.1 task.2 = false := by
    have among := tasks.mem_iff.2 there
    rw [Schedule.tasks, idle, List.nil_append] at among
    exact parked task among
  have none : workers = [] := by
    refine List.eq_nil_iff_forall_not_mem.2 fun task there => ?_
    obtain ⟨w, worker, phase⟩ := releasing task there
    have waits := blocked task (List.mem_cons_of_mem _ there)
    simp [worker, system, workerReady, phase] at waits
  subst none
  have waits := blocked _ List.mem_cons_self
  cases r with
  | receiving => simp [system, receiverReady, hungUp] at waits
  | holding d => cases free
  | draining =>
    have all : setup.allPermits ≤ s.shared.permits := Nat.le_trans (Nat.min_le_left ..) (Nat.le_of_eq permits.symm)
    simp [system, receiverReady, all] at waits

theorem ends_windsUp : Schedule.Ends (system setup) (fun s => s.shared.receiverEnd.isSome)
    (WindsUp setup file desk) where
  wakes now x id job time due reached := ready_of_wakeAt due reached
  regroup left s t windsUp now shared nextId tasks := by
    obtain ⟨same, outstanding, withinClock, ⟨log, chronicle⟩, remains⟩ := windsUp
    refine ⟨shared ▸ same, shared ▸ outstanding, shared ▸ withinClock, ⟨log, chronicle.regroup shared nextId tasks⟩, ?_⟩
    rcases remains with ended | ⟨r, workers, remains, left⟩
    · exact .inl (shared ▸ ended)
    · exact .inr ⟨r, workers, ⟨tasks.trans remains.tasks, remains.releasing, remains.free, shared ▸ remains.queue,
        shared ▸ remains.hungUp, shared ▸ remains.permits⟩, left⟩
  lives left s windsUp busy idle parked := (windsUp.lives busy idle parked).elim
  later left s time windsUp busy idle parked due := (windsUp.lives busy idle parked).elim
  step left s t id job rest windsUp busy steps := windsUp.steps busy steps

end WindsUp

/-! ### A whole file -/

/-- The one delivery of each message was applied. -/
theorem story_of_chronicle {log : List Incident} (attempts : 0 < setup.retry.maxAttempts)
    (chronicle : Chronicle setup file s log) (settled : Settled setup.retry s log) (there : m ∈ file) :
    ∃ id, Account.of id log = .story id m 1 [.ok (.applied .inserted)] [] := by
  obtain ⟨id, sent⟩ := chronicle.sent m there
  have told (result : DispatchResult) (among : (m, result) ∈ (Account.of id log).results) : result = landed :=
    chronicle.landed _ m result (Account.mem_results_iff.1 among)
  refine ⟨id, ?_⟩
  have fate := settled.fates id m sent
  generalize Account.of id log = account at told fate
  cases fate with
  | @acknowledged errors outcome letters limited leaves =>
    obtain rfl : outcome = .applied .inserted :=
      Except.ok.inj (told (.ok outcome) (List.mem_map_of_mem (List.mem_append_right _ (List.mem_singleton_self _))))
    obtain rfl : letters = [] := leaves
    have none : errors = [] := by
      refine List.eq_nil_iff_forall_not_mem.2 fun error inside => ?_
      cases told (.error error) (List.mem_map_of_mem (List.mem_append_left _ (List.mem_map_of_mem inside)))
    rw [none]
    rfl
  | @exhausted errors all =>
    obtain ⟨error, inside⟩ := List.exists_mem_of_length_pos (all ▸ attempts)
    cases told (.error error) (List.mem_map_of_mem (List.mem_map_of_mem inside))

/-- In whatever order the messages come, all are applied. -/
theorem exists_finalRun (setup : Setup Store) (backend : setup.consumer.backend = Store.backend)
    (attempts : 0 < setup.retry.maxAttempts)
    (orderable : Orderable setup.consumer.registry setup.consumer.budget setup.consumer.maxConcurrency file delay)
    {messages : List Message} (order : messages.Perm file) :
    ∃ fuel final log, (∀ more, finalRun setup (more + fuel) false messages = some final) ∧
      Mirrors setup.consumer.registry file final.shared.desk.store.records ∧ final.shared.desk.letters = [] ∧
      final.shared.desk.stats = { received := file.length, applied := file.length } ∧
      final.shared.outstanding = 0 ∧ final.shared.beyondClock = false ∧ Chronicle setup file final log := by
  obtain ⟨last, items, sent, loaded, same⟩ := (loaded_opened setup).sendAll messages
  rw [List.map_nil, List.append_nil] at same
  obtain ⟨left, underWay⟩ := loaded.underWay (same.trans order)
  have parked : last.Parked (system setup) := by
    intro task there
    rw [loaded.waiting] at there
    cases there
  obtain ⟨settles, calm, left, ⟨items, r, underWay⟩, reached, settled⟩ :=
    (ends_underWay orderable backend attempts).exists_runUntil ⟨items, .receiving, underWay⟩ parked
  have mirrors := underWay.mirrors reached
  have letters := underWay.timely.letters
  have stats := underWay.stats reached
  obtain ⟨left, windsUp⟩ := underWay.windsUp reached
  obtain ⟨finishes, final, left, windsUp, -, finished⟩ :=
    ends_windsUp.exists_runUntil windsUp (Schedule.parked_wake _ _)
  obtain ⟨same, outstanding, withinClock, ⟨log, chronicle⟩, -⟩ := windsUp
  rw [← same] at mirrors letters stats
  refine ⟨settles + finishes, final, log, fun more => ?_, mirrors, letters, stats, outstanding, withinClock, chronicle⟩
  have first : last.settled setup (more + (settles + finishes)) = some calm := by
    rw [Nat.add_comm settles, ← Nat.add_assoc]
    exact settled _
  have second : ExchangeRun.runUntil setup (more + (settles + finishes)) (·.receiverEnd.isSome)
      (ExchangeRun.hangUp setup calm) = some final := by
    rw [← Nat.add_assoc]
    exact finished _
  simp only [finalRun, Option.bind_eq_bind, sent, Option.bind_some, first, second]

/-- A file of creations that refer only to each other, and not in a circle, is applied in whatever order its
messages come, if the consumer can dispatch all of them at once and each can wait for as many delays as there
are messages. Every message is delivered once and gives the first record of its entity, nothing is set aside, and
the records do not depend on the order. -/
theorem out_of_order_files_converge (config : Subscriber.Config) (options : ReplayOptions)
    (atOnce : options.sequential = false) (file : List Message) (delay : Nat)
    (orderable : Orderable config.registry (budget config options) config.concurrency file delay) :
    ∃ records, Mirrors config.registry file records ∧
      ∀ lines : List MessageLine, (MessageFile.messages lines).Perm file →
        ∃ fuel report, (∀ more, Replay.run (more + fuel) config options lines = some report) ∧
          report.records = collect config.registry records options.includeDeleted ∧ report.letters = [] ∧
          report.stats = { received := file.length, applied := file.length } ∧
          ∃ final log, (∀ more, finalRun (Replay.setup config options) (more + fuel) false
              (MessageFile.messages lines) = some final) ∧
            Unfolds (Replay.setup config options) final log ∧
            ∀ m ∈ file, ∃ id, Account.of id log = .story id m 1 [.ok (.applied .inserted)] [] := by
  have attempts : 0 < (Replay.setup config options).retry.maxAttempts := Nat.zero_lt_succ _
  obtain ⟨-, one, -, -, mirrors, -⟩ := exists_finalRun (Replay.setup config options) rfl attempts orderable (.refl _)
  refine ⟨_, mirrors, fun lines order => ?_⟩
  obtain ⟨fuel, final, log, ran, mirrors', letters, stats, outstanding, withinClock, chronicle⟩ :=
    exists_finalRun (Replay.setup config options) rfl attempts orderable order
  have settled := (ledger_of_unfolds rfl chronicle.unfolds withinClock).settled outstanding
  refine ⟨fuel, reportOf config options lines final, fun more => run_of_finalRun (atOnce ▸ ran more), ?_, letters,
    stats, final, log, ran, chronicle.unfolds, fun m there => story_of_chronicle attempts chronicle settled there⟩
  rw [reportOf, mirrors'.eq mirrors]

theorem orderable_early :
    Orderable staff.registry (budget staff {}) staff.concurrency (MessageFile.messages early) 100 where
  creates := by decide +kernel
  distinct := by decide +kernel
  closed := by decide +kernel
  acyclic := by
    have less : ∀ m ∈ MessageFile.messages early, ∀ other ∈ MessageFile.messages early,
        other.key ∈ staff.registry.refers m →
          (staff.registry.refers other).length < (staff.registry.refers m).length := by
      decide +kernel
    exact not_transGen_of_rank _ fun m other refers => less m refers.1 other refers.2.1 refers.2.2
  room := by decide
  delays n := by
    have exact_ : Duration.ofFloat? staff.backoff.max.toFloat = some staff.backoff.max := by decide +kernel
    have doubles : staff.backoff.multiplier.AtLeast Binary64.unitsPerOne := Binary64.atLeast_two
    exact ⟨delayAfter_pos staff {} (by decide) (by decide) n,
      Backoff.delayAfter_le (by decide) (by decide) doubles exact_ n⟩
  patience isForceSync := by cases isForceSync <;> decide
  fits isForceSync := by cases isForceSync <;> decide

theorem out_of_order_files_converge_early :
    Orderable staff.registry (budget staff {}) staff.concurrency (MessageFile.messages early) 100 ∧
      (MessageFile.messages early.reverse).Perm (MessageFile.messages early) ∧
      ∃ fuel report, Replay.run fuel staff {} early.reverse = some report ∧ report.letters = [] ∧
        report.stats = { received := 3, applied := 3 } := by
  have order : (MessageFile.messages early.reverse).Perm (MessageFile.messages early) := by decide +kernel
  obtain ⟨records, mirrors, converges⟩ := out_of_order_files_converge staff {} rfl _ 100 orderable_early
  obtain ⟨fuel, report, ran, -, letters, stats, -⟩ := converges early.reverse order
  have ran := ran 0
  rw [Nat.zero_add] at ran
  exact ⟨orderable_early, order, fuel, report, ran, letters, stats⟩

end Replay

end Replica

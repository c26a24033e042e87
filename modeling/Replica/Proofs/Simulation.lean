import Replica.Exchange.Run
import Replica.Proofs.Crew
import Replica.Proofs.Post
import Replica.Proofs.Turns
import Mathlib.Data.List.Perm.Subperm
/-! Exchanges under way are posts. The couriers among the tasks of an exchange are those of a post, and
whatever else its tasks do to the bus, taking deliveries and answering them, the receiver of a post can do.
So what holds of every post holds of every exchange, whether its deliveries are taken by hand or by a
consumer. -/
namespace Replica

/-- What is known of the delivery that a worker has taken and not answered: its message, and who waits for
the verdict. A worker that was started by hand has none. -/
def Worker.holds? (w : Worker) : Option (Message × Option Nat) :=
  match w.label, w.phase with
  | none, .dispatching | none, .settling _ => some (w.dispatch.message, w.replyTo)
  | _, _ => none

namespace ExchangeRun

open Exchange

/-- What is known of the delivery that a task has taken and not answered. -/
def held? : Nat × Job → Option (Message × Option Nat)
  | (_, .receiver (.holding d)) => some (d.message, d.replyTo)
  | (_, .worker w) => w.holds?
  | _ => none

variable {σ : Type}

/-- The run is where the post is. The receiver of the post may hold more deliveries than the tasks do:
those taken by hand. -/
structure WorksAs (run : ExchangeRun σ) (post : Post σ) : Prop where
  exchange : post.exchange = run.shared
  now : post.now = run.now
  numbered : run.Numbered
  /-- The next numbers are free at the post. -/
  free : ∀ id, run.nextId ≤ id → post.couriers.get? id = none
  /-- The couriers that have not finished are the same. -/
  couriers : ∀ id m phase, post.couriers.get? id = some ⟨m, some phase⟩ ↔
    (id, .courier m phase) ∈ run.tasks
  /-- What tasks hold the receiver of the post holds. -/
  held : (run.tasks.filterMap held?).Subperm (post.hands.map fun d => (d.message, d.replyTo))

variable {run after : ExchangeRun σ} {post : Post σ}

abbrev carried (hands : List Delivery) : List (Message × Option Nat) :=
  hands.map fun d => (d.message, d.replyTo)

/-- A step that is none of a courier's: the post goes along if its receiver holds enough. -/
theorem WorksAs.aside {before left : List (Nat × Job)} (works : WorksAs run post)
    (numbered : after.Numbered) (nextId : run.nextId ≤ after.nextId) (now : after.now = run.now)
    (among : run.tasks.Perm before) (tasks : after.tasks.Perm left)
    (couriers : ∀ id m phase, (id, .courier m phase) ∈ left ↔ (id, .courier m phase) ∈ before)
    {hands : List Delivery}
    (held : (before.filterMap held?).Subperm (carried post.hands) →
      (left.filterMap held?).Subperm (carried hands)) :
    WorksAs after { post with exchange := after.shared, hands } where
  exchange := rfl
  now := works.now.trans now.symm
  numbered := numbered
  free id late := works.free id (Nat.le_trans nextId late)
  couriers id m phase := by
    rw [works.couriers, among.mem_iff, tasks.mem_iff, couriers]
  held := by
    rw [(tasks.filterMap held?).subperm_right]
    exact held ((among.filterMap held?).subperm_right.1 works.held)

/-- Work of others that leaves the bus alone is a move of the post. -/
theorem next_other (retry : Retry) (post : Post σ) {exchange : Exchange σ}
    (line : exchange.line = post.exchange.line) (replies : exchange.replies = post.exchange.replies)
    (outstanding : exchange.outstanding = post.exchange.outstanding) :
    Post.next retry post (.other fun _ => exchange) = { post with exchange } := by
  simp only [Post.next]
  rw [← line, ← replies, ← outstanding]

def SameBus (x y : Exchange σ) : Prop :=
  x.line = y.line ∧ x.replies = y.replies ∧ x.outstanding = y.outstanding

/-- A step that leaves the bus alone, and takes and answers no delivery. -/
theorem WorksAs.elsewhere {before left : List (Nat × Job)} (retry : Retry) (works : WorksAs run post)
    (numbered : after.Numbered) (nextId : run.nextId ≤ after.nextId) (now : after.now = run.now)
    (among : run.tasks.Perm before) (tasks : after.tasks.Perm left)
    (bus : SameBus after.shared run.shared)
    (couriers : ∀ id m phase, (id, .courier m phase) ∈ left ↔ (id, .courier m phase) ∈ before)
    (held : (left.filterMap held?).Subperm (before.filterMap held?)) :
    ∃ move, WorksAs after (Post.next retry post move) := by
  obtain ⟨line, replies, outstanding⟩ := bus
  rw [← works.exchange] at line replies outstanding
  refine ⟨.other fun _ => after.shared, ?_⟩
  rw [next_other retry post line replies outstanding]
  exact works.aside numbered nextId now among tasks couriers held.trans

/-- A courier's step is a step of the post's. -/
theorem WorksAs.courier {setup : Setup σ} {id : Nat} {m : Message} {phase : Courier.Phase}
    {rest : List (Nat × Job)} (works : WorksAs run post) (numbered : after.Numbered)
    (among : run.tasks.Perm ((id, .courier m phase) :: rest))
    (ready : courierReady run.now run.shared id phase = true) (now : after.now = run.now)
    (nextId : after.nextId = run.nextId)
    (shared : after.shared = (courierStep setup.retry run.now run.shared id m phase).1)
    (tasks : after.tasks.Perm
      (((courierStep setup.retry run.now run.shared id m phase).2.map (.courier m)).toList.map (id, ·) ++
        rest)) :
    WorksAs after (Post.next setup.retry post (.step id)) := by
  generalize made : courierStep setup.retry run.now run.shared id m phase = done at shared tasks
  obtain ⟨exchange, next⟩ := done
  obtain rfl : after.shared = exchange := shared
  have mine : (id, .courier m phase) ∈ run.tasks := among.mem_iff.2 List.mem_cons_self
  have there := (works.couriers id m phase).2 mine
  have stepped : Post.next setup.retry post (.step id) =
      { post with exchange := after.shared, couriers := post.couriers.insert id ⟨m, next⟩ } := by
    simp only [Post.next, there, works.exchange, works.now, ready, made, if_true]
  have distinct : (((id, Job.courier m phase) :: rest).map (·.1)).Nodup :=
    (among.map _).nodup_iff.1 works.numbered.distinct
  -- numbers are distinct, so that the courier's new phase is the only one under its number
  have gone (job : Job) : (id, job) ∉ rest := by
    intro other
    exact (List.nodup_cons.1 distinct).1 (List.mem_map.2 ⟨_, other, rfl⟩)
  rw [stepped]
  refine ⟨rfl, works.now.trans now.symm, numbered, fun n late => ?_, fun n m' phase' => ?_, ?_⟩
  · have less := works.numbered.below id (List.mem_map.2 ⟨_, mine, rfl⟩)
    rw [SortedMap.get?_insert_of_ne _ _ (by omega)]
    exact works.free n (nextId ▸ late)
  · rw [tasks.mem_iff, List.mem_append]
    by_cases own : n = id
    · subst n
      rw [SortedMap.get?_insert_self]
      cases next <;> simp [gone, eq_comm]
    · rw [SortedMap.get?_insert_of_ne _ _ own, works.couriers, among.mem_iff]
      cases next <;> simp [own]
  · rw [(tasks.filterMap held?).subperm_right]
    have before := (among.filterMap held?).subperm_right.1 works.held
    cases next <;> simpa [held?, List.filterMap_cons] using before

/-- A step of the receiver takes a delivery from the line, or is none of the bus's business. -/
theorem WorksAs.receiver (setup : Setup σ) {id : Nat} {r : Receiver} {rest : List (Nat × Job)}
    (works : WorksAs run post) (numbered : after.Numbered)
    (among : run.tasks.Perm ((id, .receiver r) :: rest)) (now : after.now = run.now)
    (nextId : run.nextId ≤ after.nextId) (shared : after.shared = (receiverStep run.now run.shared r).shared)
    (tasks : after.tasks.Perm ((receiverStep run.now run.shared r).next.toList.map (id, ·) ++ rest ++
      (receiverStep run.now run.shared r).spawned.mapIdx fun i job => (run.nextId + i, job))) :
    ∃ move, WorksAs after (Post.next setup.retry post move) := by
  cases r with
  | receiving =>
    cases popped : run.shared.line.pop? with
    | none =>
      simp only [receiverStep, popped] at shared tasks
      refine works.elsewhere setup.retry numbered nextId now among tasks ?_ ?_ ?_
      · rw [shared]
        exact ⟨rfl, rfl, rfl⟩
      · simp
      · simp [held?, List.filterMap_cons, List.Subperm.refl]
    | some taken =>
      obtain ⟨d, line⟩ := taken
      simp only [receiverStep, popped] at shared tasks
      have made : Post.next setup.retry post .take =
          { post with exchange := after.shared, hands := post.hands ++ [d] } := by
        simp only [Post.next, works.exchange, popped, shared]
      refine ⟨.take, ?_⟩
      rw [made]
      refine works.aside numbered nextId now among tasks ?_ fun held => ?_
      · simp
      · have more : (carried (post.hands ++ [d])).Perm ((d.message, d.replyTo) :: carried post.hands) := by
          rw [carried, List.map_append]
          exact List.perm_append_singleton ..
        simp only [held?, List.filterMap_cons] at held
        rw [more.subperm_left]
        simpa [held?, List.filterMap_cons, List.subperm_cons] using held
  | holding d =>
    simp only [receiverStep] at shared tasks
    refine works.elsewhere setup.retry numbered nextId now among tasks ?_ ?_ ?_
    · rw [shared]
      exact ⟨rfl, rfl, rfl⟩
    · simp
    · simpa [held?, Worker.holds?, List.filterMap_cons] using (List.perm_append_singleton _ _).subperm
  | draining =>
    simp only [receiverStep] at shared tasks
    refine works.elsewhere setup.retry numbered nextId now among tasks ?_ ?_ ?_
    · rw [shared]
      exact ⟨rfl, rfl, rfl⟩
    · simp
    · simp [held?, List.filterMap_cons, List.Subperm.refl]

/-- While it dispatches, a worker leaves the bus alone and keeps its delivery. -/
theorem workerStep_of_dispatching (setup : Setup σ) (now : Instant) (x : Exchange σ) {w : Worker}
    (phase : w.phase = .dispatching) :
    SameBus (workerStep setup now x w).1 x ∧
      ∀ later ∈ (workerStep setup now x w).2, later.holds? = w.holds? := by
  have same := w.dispatch.message_step (c := setup.consumer) now x.desk
  unfold workerStep
  rw [phase]
  cases decided : w.dispatch.result? with
  | some result => cases label : w.label <;> simp [SameBus, Worker.holds?, phase, label]
  | none =>
    generalize w.dispatch.step setup.consumer now x.desk = made at same
    obtain ⟨desk, after⟩ := made
    replace same : after.message = w.dispatch.message := same
    cases reached : after.phase <;> cases label : w.label <;>
      simp [SameBus, Worker.holds?, phase, label, reached, same]

/-- A step of a worker answers the delivery that it took, or is none of the bus's business. -/
theorem WorksAs.worker (setup : Setup σ) {id : Nat} {w : Worker} {rest : List (Nat × Job)}
    (works : WorksAs run post) (numbered : after.Numbered)
    (among : run.tasks.Perm ((id, .worker w) :: rest)) (now : after.now = run.now)
    (nextId : run.nextId ≤ after.nextId)
    (shared : after.shared = (workerStep setup run.now run.shared w).1)
    (tasks : after.tasks.Perm
      (((workerStep setup run.now run.shared w).2.map .worker).toList.map (id, ·) ++ rest)) :
    ∃ move, WorksAs after (Post.next setup.retry post move) := by
  cases phase : w.phase with
  | dispatching =>
    obtain ⟨bus, goesOn⟩ := workerStep_of_dispatching setup run.now run.shared phase
    generalize workerStep setup run.now run.shared w = made at shared tasks bus goesOn
    obtain ⟨exchange, next⟩ := made
    refine works.elsewhere setup.retry numbered nextId now among tasks (shared ▸ bus) ?_ ?_
    · cases next <;> simp
    · cases next with
      | none => exact ((List.sublist_cons_self ..).filterMap held?).subperm
      | some later =>
        have same : later.holds? = w.holds? := goesOn later rfl
        simp [List.filterMap_cons, held?, same, List.Subperm.refl]
  | settling result =>
    cases label : w.label with
    | some label =>
      simp only [workerStep, phase, label] at shared tasks
      refine works.elsewhere setup.retry numbered nextId now among tasks ?_ ?_ ?_
      · rw [shared]
        exact ⟨rfl, rfl, rfl⟩
      · simp
      · simp [held?, Worker.holds?, label, List.Subperm.refl]
    | none =>
      simp only [workerStep, phase, label] at shared tasks
      have holds : w.holds? = some (w.dispatch.message, w.replyTo) := by
        simp [Worker.holds?, phase, label]
      have all := (among.filterMap held?).subperm_right.1 works.held
      rw [List.filterMap_cons_some (b := (w.dispatch.message, w.replyTo)) (by exact holds)] at all
      -- only message and recipient are kept with the worker, and nothing else of a delivery matters
      -- to the answer
      obtain ⟨d, held, same⟩ := List.mem_map.1 (all.subset List.mem_cons_self)
      rw [← same] at all
      obtain ⟨-, replyTo⟩ := Prod.mk.inj same
      have made : Post.next setup.retry post (.answer d (.ofResult result)) =
          { post with exchange := after.shared, hands := post.hands.erase d } := by
        simp [Post.next, held, works.exchange, works.now, shared, replyTo]
      refine ⟨.answer d (.ofResult result), ?_⟩
      rw [made]
      refine works.aside numbered nextId now among tasks ?_ fun _ => ?_
      · simp
      · have fewer := (List.perm_cons_erase held).map fun d => (d.message, d.replyTo)
        rw [fewer.subperm_left, List.map_cons, List.subperm_cons] at all
        simpa [held?, Worker.holds?, label, List.filterMap_cons] using all
  | releasing =>
    simp only [workerStep, phase] at shared tasks
    refine works.elsewhere setup.retry numbered nextId now among tasks ?_ ?_ ?_
    · rw [shared]
      exact ⟨rfl, rfl, rfl⟩
    · simp
    · cases label : w.label <;>
        simp [held?, Worker.holds?, phase, label, List.Subperm.refl]

/-- Every step of an exchange, whichever task makes it, is at most one move of the post. -/
theorem WorksAs.goes {setup : Setup σ} (works : WorksAs run post)
    (goes : Schedule.Goes (system setup) run after) :
    ∃ move, WorksAs after (Post.next setup.retry post move) := by
  have numbered := works.numbered.goes goes
  cases goes with
  | passed later shared nextId tasks =>
    refine ⟨.pass (after.now - run.now), works.exchange.trans shared.symm, ?_, numbered, ?_, ?_, ?_⟩
    · change post.now + (after.now - run.now) = after.now
      rw [works.now]
      exact Nat.add_sub_cancel' later
    · rw [nextId]
      exact works.free
    · intro id m phase
      rw [tasks.mem_iff]
      exact works.couriers id m phase
    · rw [(tasks.filterMap held?).subperm_right]
      exact works.held
  | @stepped id job rest among ready now shared nextId tasks =>
    have grows : run.nextId ≤ after.nextId := nextId ▸ Nat.le_add_right ..
    cases job with
    | courier m phase =>
      refine ⟨.step id, works.courier numbered among ready now nextId shared ?_⟩
      simpa [system] using tasks
    | receiver r => exact works.receiver setup numbered among now grows shared tasks
    | worker w =>
      refine works.worker setup numbered among now grows shared ?_
      simpa [system] using tasks
    | timer until_ =>
      refine works.elsewhere setup.retry numbered grows now among tasks ?_ ?_ ?_
      · rw [shared]
        exact ⟨rfl, rfl, rfl⟩
      · simp [system]
      · simp [system, held?, List.filterMap_cons, List.Subperm.refl]

/-- However long an exchange runs, it works as the post after some more moves. -/
theorem WorksAs.runUntil {setup : Setup σ} {stop : ExchangeRun σ → Bool} {fuel : Nat}
    (works : WorksAs run post) (ran : Schedule.runUntil (system setup) stop fuel run = some after) :
    ∃ moves, WorksAs after (Post.run setup.retry moves post) := by
  refine Schedule.of_runUntil (fun s => ∃ moves, WorksAs s (Post.run setup.retry moves post)) (fun s t goes => ?_)
    ⟨[], works⟩ ran
  rintro ⟨moves, works⟩
  obtain ⟨move, works⟩ := works.goes goes
  exact ⟨moves ++ [move], by rwa [Post.run_append]⟩

/-! ### What is done to an exchange from outside -/

/-- A change to what is shared, with the tasks as they were. -/
theorem WorksAs.change (works : WorksAs run post) (setup : Setup σ) (f : Exchange σ → Exchange σ)
    {hands : List Delivery}
    (held : (run.tasks.filterMap held?).Subperm (carried post.hands) →
      (run.tasks.filterMap held?).Subperm (carried hands)) :
    WorksAs (run.change setup f) { post with exchange := f run.shared, hands } := by
  have tasks : (run.change setup f).tasks.Perm run.tasks := Schedule.tasks_wake ..
  have same : run.tasks.Perm run.tasks := .refl _
  exact works.aside (works.numbered.of_perm tasks rfl) (Nat.le_refl _) rfl same tasks
    (fun _ _ _ => .rfl) held

theorem WorksAs.send (works : WorksAs run post) (retry : Retry) (m : Message) :
    WorksAs (run.send m).2 (Post.next retry post (.send run.nextId m)) := by
  have free := works.free run.nextId (Nat.le_refl _)
  cases gone : run.shared.line.closed with
  | true => simpa [ExchangeRun.send, Post.next, free, works.exchange, gone] using works
  | false =>
    let counted : ExchangeRun σ :=
      { run with shared := { run.shared with outstanding := run.shared.outstanding + 1 } }
    have sent : (run.send m).2 = counted.spawn [.courier m (.attempt 0)] := by
      simp [ExchangeRun.send, gone, counted]
    have made : Post.next retry post (.send run.nextId m) =
        { post with
          exchange := counted.shared
          couriers := post.couriers.insert run.nextId { message := m } } := by
      simp [Post.next, free, works.exchange, gone, counted]
    have tasks : (counted.spawn [.courier m (.attempt 0)]).tasks.Perm
        (run.tasks ++ [(run.nextId, .courier m (.attempt 0))]) := Schedule.tasks_spawn ..
    have numbered : counted.Numbered := works.numbered.of_perm (.refl _) rfl
    rw [sent, made]
    refine ⟨rfl, works.now, numbered.spawn _, fun id late => ?_, fun id m' phase => ?_, ?_⟩
    · have later : run.nextId + 1 ≤ id := late
      rw [SortedMap.get?_insert_of_ne _ _ (by omega)]
      exact works.free id (by omega)
    · rw [tasks.mem_iff, List.mem_append, ← works.couriers]
      by_cases own : id = run.nextId
      · subst own
        rw [SortedMap.get?_insert_self, free]
        simp [eq_comm]
      · rw [SortedMap.get?_insert_of_ne _ _ own]
        simp [own]
    · have same : ((counted.spawn [.courier m (.attempt 0)]).tasks.filterMap held?).Perm
          (run.tasks.filterMap held?) := by
        simpa [List.filterMap_cons, held?] using tasks.filterMap held?
      exact same.subperm_right.2 works.held

theorem WorksAs.receive (works : WorksAs run post) (setup : Setup σ) :
    ∃ move, WorksAs (run.receive setup) (Post.next setup.retry post move) := by
  let permitted : ExchangeRun σ := { run with shared := { run.shared with permits := setup.limit } }
  have numbered : permitted.Numbered := works.numbered.of_perm (.refl _) rfl
  have tasks : (permitted.spawn [.receiver .receiving]).tasks.Perm
      (run.tasks ++ [(run.nextId, .receiver .receiving)]) := Schedule.tasks_spawn ..
  refine works.elsewhere setup.retry (numbered.spawn _) (Nat.le_succ _) rfl (.refl _) tasks
    ⟨rfl, rfl, rfl⟩ ?_ ?_
  · simp
  · simp [List.filterMap_cons, held?, List.Subperm.refl]

/-- The next delivery is taken by hand. -/
theorem WorksAs.take (works : WorksAs run post) (setup : Setup σ) {d : Delivery} {line : Line}
    (popped : run.shared.line.pop? = some (d, line)) :
    WorksAs (run.change setup fun x => { x with line }) (Post.next setup.retry post .take) := by
  have made : Post.next setup.retry post .take =
      { post with exchange := { run.shared with line }, hands := post.hands ++ [d] } := by
    simp only [Post.next, works.exchange, popped]
  rw [made]
  refine works.change setup _ fun held => held.trans ?_
  exact ((List.sublist_append_left ..).map _).subperm

/-- A delivery is answered that no task holds. -/
theorem WorksAs.answer (works : WorksAs run post) (setup : Setup σ) {d : Delivery} (verdict : Verdict)
    (held : d ∈ post.hands)
    (byHand : ((d.message, d.replyTo) :: run.tasks.filterMap held?).Subperm (carried post.hands)) :
    WorksAs (run.answer setup d verdict) (Post.next setup.retry post (.answer d verdict)) := by
  have made : Post.next setup.retry post (.answer d verdict) =
      { post with
        exchange := run.shared.reply run.now d.replyTo verdict
        hands := post.hands.erase d } := by
    simp [Post.next, held, works.exchange, works.now]
  rw [made]
  refine works.change setup _ fun _ => ?_
  have fewer := (List.perm_cons_erase held).map fun d => (d.message, d.replyTo)
  rwa [fewer.subperm_left, List.map_cons, List.subperm_cons] at byHand

theorem WorksAs.close (works : WorksAs run post) (setup : Setup σ) :
    WorksAs (run.close setup) (Post.next setup.retry post .close) := by
  have made : Post.next setup.retry post .close = { post with exchange := run.shared.close run.now } := by
    simp only [Post.next, works.exchange, works.now]
  rw [made]
  exact works.change setup _ fun held => held

end ExchangeRun

end Replica

import Replica.Proofs.Fate
import Replica.Proofs.Sample
/-! The books of an exchange. Messages under way, letters and deliveries are counted in places that do not
know of each other; every step keeps the counts in agreement with what happened so far. -/
namespace Replica

namespace Dispatch

theorem letters_prefix_step {σ : Type} (c : Consumer σ) (now : Instant) (desk : Desk σ) (d : Dispatch) :
    desk.letters <+: (d.step c now desk).1.letters := by
  unfold step
  cases d.phase with
  | shelving letter result =>
    dsimp only
    split
    · exact List.prefix_append ..
    · exact List.prefix_refl _
  | _ => exact List.prefix_refl _

end Dispatch

namespace Exchange

section Acts

variable {σ : Type} {setup : Setup σ} {now : Instant} {x after : Exchange σ} {n : Nat} {job : Job}
  {next : Option Job} {spawned : List Job} {es : List Incident}

theorem Acts.line (acts : Acts setup now x n job after next spawned es) (bound : after.beyondClock = false)
    (attached : Attached job) :
    after.line.closed = x.line.closed ∧ ∀ d ∈ after.line.queue, d ∈ x.line.queue ∨ d.replyTo ≠ none := by
  cases acts with
  | courier steps =>
    refine ⟨steps.closed_eq.1, ?_⟩
    cases steps <;> simp_all [Line.enlist, or_imp]
  | took popped =>
    obtain ⟨queue, closed⟩ := Post.queue_of_pop? popped
    simp_all
  | settled =>
    rw [Post.line_reply]
    exact ⟨rfl, fun d there => .inl there⟩
  | lost gone => simp [gone] at bound
  | filed labelled _ => exact absurd attached.1 labelled
  | _ => exact ⟨rfl, fun d there => .inl there⟩

theorem Acts.attached (acts : Acts setup now x n job after next spawned es) (attached : Attached job)
    (addressed : ∀ d ∈ x.line.queue, d.replyTo ≠ none) : ∀ job ∈ next.toList ++ spawned, Attached job := by
  cases acts with
  | @courier m phase _ courier => cases courier <;> simp [Attached]
  | @took d line popped =>
    have first := (Post.queue_of_pop? popped).1
    simpa [Attached] using addressed d (by simp [first])
  | handed => simpa [Attached] using attached
  | dispatched _ label replyTo => simpa [Attached, label, replyTo] using attached
  | found | settled => simpa [Attached] using attached
  | _ => simp [Attached]

/-- Couriers are counted. -/
def isCourier : Job → Bool
  | .courier .. => true
  | _ => false

theorem Acts.outstanding (acts : Acts setup now x n job after next spawned es)
    (bound : after.beyondClock = false) (attached : Attached job) {others : Nat}
    (count : x.outstanding = (isCourier job).toNat + others) :
    after.outstanding = (next.toList ++ spawned).countP isCourier + others := by
  cases acts with
  | courier steps => cases steps <;> simp_all [isCourier]
  | settled => simpa [isCourier, Post.outstanding_reply] using count
  | lost gone => simp [gone] at bound
  | filed labelled _ => exact absurd attached.1 labelled
  | _ => simpa [isCourier] using count

theorem Acts.letters (acts : Acts setup now x n job after next spawned es)
    (bound : after.beyondClock = false) (attached : Attached job) :
    after.desk.letters = x.desk.letters ++ es.filterMap Incident.letter? ∧
      ∀ letter, .shelved none letter ∉ es := by
  cases acts with
  | courier steps => cases steps <;> simp [incident?, List.filterMap_cons, Incident.letter?, Desk.shelve]
  | @dispatched w =>
    obtain ⟨new, left⟩ := w.dispatch.letters_prefix_step setup.consumer now x.desk
    have all : (fun letter => Incident.letter? (.shelved w.replyTo letter)) = some := rfl
    simp [← left, List.filterMap_map, all, attached.2]
  | @settled w =>
    cases recipient : w.replyTo <;> simp [Incident.letter?, reply, List.filterMap_cons]
  | lost gone => simp [gone] at bound
  | filed labelled _ => exact absurd attached.1 labelled
  | _ => simp

theorem Acts.sent (acts : Acts setup now x n job after next spawned es) (bound : after.beyondClock = false)
    (attached : Attached job) (id : Nat) (m : Message) : .sent id m ∉ es := by
  cases acts with
  | courier steps => cases steps <;> simp [incident?, List.filterMap_cons]
  | dispatched =>
    intro told
    obtain ⟨letter, -, other⟩ := List.mem_map.1 told
    cases other
  | @settled w => cases recipient : w.replyTo <;> simp
  | lost gone => simp [gone] at bound
  | filed labelled _ => exact absurd attached.1 labelled
  | _ => simp

theorem Acts.withinClock (acts : Acts setup now x n job after next spawned es)
    (bound : after.beyondClock = false) : x.beyondClock = false := by
  cases acts with
  | courier steps => cases steps <;> exact bound
  | @settled w =>
    cases recipient : w.replyTo <;> simpa [reply, recipient] using bound
  | lost gone => simp [gone] at bound
  | filed _ same => exact same ▸ bound
  | _ => exact bound

/-- The delivery was taken from the line, and its dispatch has not counted it yet. -/
def isUncounted : Job → Bool
  | .receiver (.holding _) => true
  | .worker w =>
    match w.phase with
    | .dispatching => w.dispatch.phase.isArrived
    | _ => false
  | _ => false

theorem Acts.received (acts : Acts setup now x n job after next spawned es)
    (bound : after.beyondClock = false) (attached : Attached job) :
    after.desk.stats.received + after.line.queue.length + (next.toList ++ spawned).countP isUncounted =
      x.desk.stats.received + x.line.queue.length + (isUncounted job).toNat +
        (es.filterMap Incident.delivery?).length := by
  cases acts with
  | courier steps =>
    cases steps <;>
      simp_all [isUncounted, incident?, List.filterMap_cons, Incident.delivery?, Line.enlist, Desk.shelve]
    all_goals rfl
  | took popped =>
    have queue := (Post.queue_of_pop? popped).1
    simp [isUncounted, queue]
    omega
  | @dispatched w later going label replyTo dispatch phase =>
    obtain ⟨counted, further⟩ := w.dispatch.received_step setup.consumer now x.desk
    rw [← dispatch] at further
    have silent : isUncounted (.worker later) = false := by
      rcases phase with phase | ⟨result, -, phase⟩ <;> simp [isUncounted, phase, further]
    have quiet (letters : List DeadLetter) :
        (letters.map (.shelved w.replyTo)).filterMap Incident.delivery? = [] := by
      simp [Incident.delivery?]
    simp only [quiet, counted, Option.toList_some, List.append_nil, List.countP_singleton, silent]
    simp [isUncounted, going]
    omega
  | found going done => simp [isUncounted, going, done, Dispatch.Phase.isArrived]
  | @settled w result phase unlabelled =>
    cases recipient : w.replyTo <;>
      simp [isUncounted, phase, reply, Incident.delivery?, List.filterMap_cons]
  | lost gone => simp [gone] at bound
  | filed labelled _ => exact absurd attached.1 labelled
  | released phase => simp [isUncounted, phase]
  | handed => simp [isUncounted, Dispatch.Phase.isArrived]
  | _ => simp [isUncounted]

end Acts

/-- What is so at every moment. -/
structure Ledger (setup : Setup σ) (run : ExchangeRun σ) (log : List Incident) : Prop where
  journeys : ∀ id, Whereabouts setup.retry run.shared run.tasks id (.of id log)
  fresh : ∀ id m, .sent id m ∈ log → id < run.nextId
  open_ : run.shared.line.closed = false
  addressed : ∀ d ∈ run.shared.line.queue, d.replyTo ≠ none
  attached : ∀ task ∈ run.tasks, Attached task.2
  outstanding : run.shared.outstanding = run.tasks.countP (isCourier ·.2)
  letters : run.shared.desk.letters = log.filterMap Incident.letter?
  owned : ∀ letter, .shelved none letter ∉ log
  received : run.shared.desk.stats.received + run.shared.line.queue.length +
    run.tasks.countP (isUncounted ·.2) = (log.filterMap Incident.delivery?).length

variable {σ : Type} {setup : Setup σ} {run after : ExchangeRun σ} {log : List Incident}

/-- A change that leaves bus, letters and counters alone, and at most adds a receiver. -/
theorem Ledger.keep (ledger : Ledger setup run log) (extra : List (Nat × Job))
    (idle : ∀ task ∈ extra, task.2 = .receiver .receiving) (tasks : after.tasks.Perm (run.tasks ++ extra))
    (nextId : run.nextId ≤ after.nextId) (closed : after.shared.line.closed = run.shared.line.closed)
    (queue : after.shared.line.queue = run.shared.line.queue)
    (replies : after.shared.replies = run.shared.replies)
    (outstanding : after.shared.outstanding = run.shared.outstanding)
    (letters : after.shared.desk.letters = run.shared.desk.letters)
    (stats : after.shared.desk.stats = run.shared.desk.stats) : Ledger setup after log := by
  have apart (id : Nat) (task : Nat × Job) (there : task ∈ extra) : Apart id task := by
    obtain ⟨n, job⟩ := task
    obtain rfl := idle _ there
    exact ⟨rfl, rfl⟩
  constructor
  · intro id
    obtain ⟨places, standing, journey⟩ := ledger.journeys id
    obtain ⟨nobody, nothing⟩ := filterMap_of_apart (apart id)
    refine ⟨places, standing.keep ?_ ?_ (by rw [queue]) (by rw [replies]), journey⟩
    · simpa [nobody] using tasks.filterMap (courier? id)
    · simpa [nothing] using tasks.filterMap (holder? id)
  · exact fun id m sent => Nat.lt_of_lt_of_le (ledger.fresh id m sent) nextId
  · exact closed.trans ledger.open_
  · rw [queue]
    exact ledger.addressed
  · intro task there
    rcases List.mem_append.1 (tasks.mem_iff.1 there) with old | new
    · exact ledger.attached task old
    · rw [idle task new]
      trivial
  · have none : extra.countP (isCourier ·.2) = 0 := by
      refine List.countP_eq_zero.2 fun task there => ?_
      rw [idle task there]
      exact Bool.false_ne_true
    rw [outstanding, tasks.countP_eq, List.countP_append, none, ledger.outstanding, Nat.add_zero]
  · exact letters.trans ledger.letters
  · exact ledger.owned
  · have none : extra.countP (isUncounted ·.2) = 0 := by
      refine List.countP_eq_zero.2 fun task there => ?_
      rw [idle task there]
      exact Bool.false_ne_true
    rw [stats, queue, tasks.countP_eq, List.countP_append, none]
    exact ledger.received

theorem ledger_start (setup : Setup σ) (store : σ) (capacity : Nat) :
    Ledger setup (.start store (.ofCapacity capacity)) [] where
  journeys id := ⟨{}, ⟨.nil, rfl, .nil, rfl⟩, .unsent⟩
  fresh := by simp
  open_ := rfl
  addressed := by simp [ExchangeRun.start, Line.ofCapacity]
  attached := by simp [Schedule.tasks, ExchangeRun.start]
  outstanding := rfl
  letters := rfl
  owned := by simp
  received := rfl

/-- Where nothing was sent, there is nothing. -/
theorem Journey.unsent_of_sent {retry : Retry} {id : Nat} {places : Places} {account : Account}
    (journey : Journey retry id places account) (none : account.sent = []) :
    places = {} ∧ account = {} := by
  cases journey with
  | unsent => exact ⟨rfl, rfl⟩
  | leaving fate | gone fate => simp [fate.sent_eq] at none
  | _ => cases none

theorem send_eq_ok {m : Message} (accepted : run.send m = (.ok (), after)) :
    after.shared = { run.shared with outstanding := run.shared.outstanding + 1 } ∧
      after.nextId = run.nextId + 1 ∧
      after.tasks.Perm (run.tasks ++ [(run.nextId, .courier m (.attempt 0))]) := by
  unfold ExchangeRun.send at accepted
  split at accepted
  · cases accepted
  · obtain rfl := (Prod.mk.inj accepted).2
    exact ⟨rfl, rfl, Schedule.tasks_spawn ..⟩

/-- A message that is sent begins its journey, and no other is touched. -/
theorem Ledger.whereabouts_of_sent {m : Message} (ledger : Ledger setup run log)
    (accepted : run.send m = (.ok (), after)) (id : Nat) :
    Whereabouts setup.retry after.shared after.tasks id (.of id log ++ .of id [.sent run.nextId m]) := by
  obtain ⟨shared, -, tasks⟩ := send_eq_ok accepted
  obtain ⟨places, standing, journey⟩ := ledger.journeys id
  by_cases own : run.nextId = id
  · subst own
    have unsent : (Account.of run.nextId log).sent = [] := by
      apply List.eq_nil_iff_forall_not_mem.2
      intro other sent
      exact Nat.lt_irrefl _ (ledger.fresh _ _ (Account.mem_sent_iff.1 sent))
    obtain ⟨rfl, none⟩ := journey.unsent_of_sent unsent
    rw [none]
    have first : Journey setup.retry run.nextId { couriers := [(m, .attempt 0)] }
        ({} ++ .of run.nextId [.sent run.nextId m]) := by
      have between : Journey setup.retry run.nextId { couriers := [(m, .attempt 0)] }
          (.story run.nextId m 0 [] []) := @Journey.between _ _ m [] (.attempt 0) rfl (Nat.zero_le _)
      simpa [Account.of, Account.ofIncident, Account.story, Account.append_def] using between
    refine ⟨_, ?_, first⟩
    have nobody := standing.couriers.eq_nil
    have empty := standing.holders.eq_nil
    refine ⟨?_, shared ▸ standing.queue, ?_, shared ▸ standing.replies⟩
    · simpa [courier?, nobody] using tasks.filterMap (courier? run.nextId)
    · refine (tasks.filterMap (holder? run.nextId)).trans ?_
      rw [List.filterMap_append, empty]
      exact .refl _
  · refine ⟨places, standing.keep ?_ ?_ (by rw [shared]) (by rw [shared]), ?_⟩
    · simpa [courier?, own] using tasks.filterMap (courier? id)
    · simpa [holder?, List.filterMap_cons] using tasks.filterMap (holder? id)
    · simpa [Account.of, Account.ofIncident, own] using journey

theorem Ledger.sent {m : Message} (ledger : Ledger setup run log)
    (accepted : run.send m = (.ok (), after)) : Ledger setup after (log ++ [.sent run.nextId m]) := by
  obtain ⟨shared, nextId, tasks⟩ := send_eq_ok accepted
  constructor
  · intro id
    rw [Account.of_append]
    exact ledger.whereabouts_of_sent accepted id
  · intro id other sent
    rcases List.mem_append.1 sent with old | new
    · have less := ledger.fresh id other old
      omega
    · obtain ⟨rfl, rfl⟩ : id = run.nextId ∧ other = m := by simpa using new
      omega
  · rw [shared]
    exact ledger.open_
  · rw [shared]
    exact ledger.addressed
  · intro task there
    rcases List.mem_append.1 (tasks.mem_iff.1 there) with old | new
    · exact ledger.attached task old
    · rw [List.mem_singleton.1 new]
      trivial
  · rw [shared, tasks.countP_eq, List.countP_append, ledger.outstanding]
    rfl
  · rw [shared]
    simpa [Incident.letter?, List.filterMap_cons] using ledger.letters
  · simpa using ledger.owned
  · rw [shared, tasks.countP_eq, List.countP_append]
    simpa [isUncounted, Incident.delivery?, List.filterMap_cons] using ledger.received

theorem map_spawned (first : Nat) (spawned : List Job) :
    (spawned.mapIdx fun i job => (first + i, job)).map (·.2) = spawned := by
  apply List.ext_getElem
  · simp
  · intro i _ _
    simp

theorem countP_spawned (f : Job → Bool) (first : Nat) (spawned : List Job) :
    (spawned.mapIdx fun i job => (first + i, job)).countP (f ·.2) = spawned.countP f := by
  have count := List.countP_map (p := f) (f := Prod.snd)
    (l := spawned.mapIdx fun i job => (first + i, job))
  rw [map_spawned] at count
  exact count.symm

theorem Ledger.stepped (keeps : setup.consumer.keepsLetters = true) (ledger : Ledger setup run log)
    {id : Nat} {job : Job} {rest : List (Nat × Job)} (among : run.tasks.Perm ((id, job) :: rest))
    {next : Option Job} {spawned : List Job} {es : List Incident}
    (acts : Acts setup run.now run.shared id job after.shared next spawned es)
    (bound : after.shared.beyondClock = false) (nextId : after.nextId = run.nextId + spawned.length)
    (tasks : after.tasks.Perm (next.toList.map (id, ·) ++ rest ++
      spawned.mapIdx fun i task => (run.nextId + i, task))) : Ledger setup after (log ++ es) := by
  have attached : Attached job := ledger.attached _ (among.mem_iff.2 List.mem_cons_self)
  obtain ⟨closed, queued⟩ := acts.line bound attached
  obtain ⟨letters, owned⟩ := acts.letters bound attached
  have count (f : Job → Bool) : after.tasks.countP (f ·.2) =
      (next.toList ++ spawned).countP f + rest.countP (f ·.2) := by
    rw [tasks.countP_eq, List.countP_append, List.countP_append, List.countP_append, countP_spawned]
    cases next <;> simp <;> omega
  have before (f : Job → Bool) : run.tasks.countP (f ·.2) = (f job).toNat + rest.countP (f ·.2) := by
    rw [among.countP_eq, List.countP_cons]
    cases f job <;> simp [Nat.add_comm]
  constructor
  · intro n
    obtain ⟨places, standing, journey⟩ := (ledger.journeys n).perm among.symm
    rw [Account.of_append]
    exact (journey.acts keeps acts bound attached ledger.open_ standing run.nextId).perm tasks
  · intro n m sent
    rcases List.mem_append.1 sent with old | new
    · have less := ledger.fresh n m old
      omega
    · exact absurd new (acts.sent bound attached n m)
  · exact closed.trans ledger.open_
  · intro d there
    rcases queued d there with old | new
    · exact ledger.addressed d old
    · exact new
  · intro task there
    have new := acts.attached attached ledger.addressed
    rcases List.mem_append.1 (tasks.mem_iff.1 there) with old | fresh
    · rcases List.mem_append.1 old with mine | others
      · obtain ⟨job, among, rfl⟩ := List.mem_map.1 mine
        exact new job (List.mem_append_left _ among)
      · exact ledger.attached task (among.mem_iff.2 (List.mem_cons_of_mem _ others))
    · obtain ⟨i, inside, rfl⟩ := List.mem_mapIdx.1 fresh
      exact new _ (List.mem_append_right _ (List.getElem_mem inside))
  · rw [count]
    exact acts.outstanding bound attached (ledger.outstanding.trans (before _))
  · rw [letters, ledger.letters, List.filterMap_append]
  · intro letter there
    rcases List.mem_append.1 there with old | new
    · exact ledger.owned letter old
    · exact owned letter new
  · have counted := acts.received bound attached
    have balance := ledger.received
    rw [before] at balance
    rw [count, List.filterMap_append, List.length_append]
    omega

theorem ledger_of_unfolds (keeps : setup.consumer.keepsLetters = true) (unfolds : Unfolds setup run log)
    (bound : run.shared.beyondClock = false) : Ledger setup run log := by
  induction unfolds with
  | start store capacity => exact ledger_start setup store capacity
  | @receive run log before ih =>
    refine (ih bound).keep [(run.nextId, .receiver .receiving)] (by simp)
      (Schedule.tasks_spawn ..) (Nat.le_succ _) rfl rfl rfl rfl rfl rfl
  | sent before accepted ih =>
    obtain ⟨shared, -⟩ := send_eq_ok accepted
    rw [shared] at bound
    exact (ih bound).sent accepted
  | changed before f ih =>
    refine (ih bound).keep [] (by simp) ?_ (Nat.le_refl _) rfl rfl rfl rfl rfl rfl
    rw [List.append_nil]
    exact Schedule.tasks_wake ..
  | hungUp before ih =>
    refine (ih bound).keep [] (by simp) ?_ (Nat.le_refl _) rfl rfl rfl rfl rfl rfl
    rw [List.append_nil]
    exact Schedule.tasks_wake ..
  | passed before shared nextId tasks ih =>
    rw [shared] at bound
    refine (ih bound).keep [] (by simp) ?_ (Nat.le_of_eq nextId.symm) ?_ ?_ ?_ ?_ ?_ ?_
    · rwa [List.append_nil]
    all_goals rw [shared]
  | stepped before among ready shared nextId tasks ih =>
    have acts := acts_step ready
    rw [← shared] at acts
    exact (ih (acts.withinClock bound)).stepped keeps among acts bound nextId tasks

/-- Every message sent has come to its end, and nothing is counted or kept that does not belong to one. -/
structure Settled (retry : Retry) (run : ExchangeRun σ) (log : List Incident) : Prop where
  fates : ∀ id m, .sent id m ∈ log → Fate retry id m (.of id log)
  letters : run.shared.desk.letters = log.filterMap Incident.letter?
  owned : ∀ owner letter, .shelved owner letter ∈ log → ∃ id m, owner = some id ∧ .sent id m ∈ log
  received : run.shared.desk.stats.received = (log.filterMap Incident.delivery?).length

theorem exists_holder {n : Nat} {job : Job} (uncounted : isUncounted job = true) (attached : Attached job) :
    ∃ id holder, holder? id (n, job) = some holder := by
  cases job with
  | receiver r =>
    cases r with
    | holding d =>
      obtain ⟨id, own⟩ := Option.ne_none_iff_exists'.1 attached
      exact ⟨id, _, if_pos own⟩
    | _ => cases uncounted
  | worker w =>
    obtain ⟨id, own⟩ := Option.ne_none_iff_exists'.1 attached.2
    refine ⟨id, _, holder?_worker own ?_⟩
    intro released
    simp [isUncounted, released] at uncounted
  | _ => cases uncounted

section Idle

variable (ledger : Ledger setup run log) (idle : run.shared.outstanding = 0)

include ledger idle

/-- When nothing is under way, nothing of any message is left, and each one sent has met its fate. -/
theorem Ledger.ended (id : Nat) : Standing run.shared run.tasks id {} ∧
    (Account.of id log = {} ∨ ∃ m, Fate setup.retry id m (.of id log)) := by
  obtain ⟨places, standing, journey⟩ := ledger.journeys id
  have nobody : run.tasks.filterMap (courier? id) = [] := by
    apply List.filterMap_eq_nil_iff.2
    intro task there
    have other := List.countP_eq_zero.1 (ledger.outstanding.symm.trans idle) task there
    obtain ⟨n, job⟩ := task
    cases job with
    | courier m phase => exact absurd rfl other
    | _ => rfl
  have couriers := standing.couriers
  rw [nobody] at couriers
  have none : places.couriers = [] := couriers.nil_eq.symm
  generalize Account.of id log = account at journey
  cases journey with
  | unsent => exact ⟨standing, .inl rfl⟩
  | gone fate => exact ⟨standing, .inr ⟨_, fate⟩⟩
  | _ => cases none

theorem Ledger.queue_eq_nil : run.shared.line.queue = [] := by
  apply List.eq_nil_iff_forall_not_mem.2
  intro d there
  obtain ⟨id, own⟩ := Option.ne_none_iff_exists'.1 (ledger.addressed d there)
  have among : d ∈ run.shared.line.queue.filter (·.replyTo == some id) :=
    List.mem_filter.2 ⟨there, by simp [own]⟩
  rw [(ledger.ended idle id).1.queue] at among
  cases among

theorem Ledger.countP_isUncounted : run.tasks.countP (isUncounted ·.2) = 0 := by
  apply List.countP_eq_zero.2
  intro task there uncounted
  obtain ⟨id, holder, held⟩ := exists_holder (n := task.1) uncounted (ledger.attached task there)
  have among := List.mem_filterMap.2 ⟨task, there, held⟩
  rw [(ledger.ended idle id).1.holders.eq_nil] at among
  cases among

theorem Ledger.settled : Settled setup.retry run log := by
  constructor
  · intro id m sent
    have told := Account.mem_sent_iff.2 sent
    rcases (ledger.ended idle id).2 with none | ⟨other, fate⟩
    · rw [none] at told
      cases told
    · rw [fate.sent_eq] at told
      obtain rfl := List.mem_singleton.1 told
      exact fate
  · exact ledger.letters
  · intro owner letter shelved
    cases owner with
    | none => exact absurd shelved (ledger.owned letter)
    | some id =>
      have told := Account.mem_letters_iff.2 shelved
      rcases (ledger.ended idle id).2 with none | ⟨m, fate⟩
      · rw [none] at told
        cases told
      · exact ⟨id, m, rfl, Account.mem_sent_iff.1 (by simp [fate.sent_eq])⟩
  · have balance := ledger.received
    rw [ledger.queue_eq_nil idle, ledger.countP_isUncounted idle] at balance
    exact balance

end Idle

section Samples

open Fixtures

/-- Two attempts, one right after the other. -/
def hasty : Retry := ⟨2, .fixed 0⟩

def office : Setup Store := { consumer := service, retry := hasty }

def acme : Message := companyCreated "c-1" "Acme" (stamp 1)

/-- Nobody handles branches. -/
def branch : Message := { acme with entityKind := "branch" }

/-- The next two writes fail. -/
def failing : ExchangeRun Store :=
  ((ExchangeRun.start ({} : Store) (.ofCapacity 1)).receive office).changeStore office (·.failNextWrites 2)

end Samples

end Exchange

end Replica

import Replica.Proofs.Ledger
import Replica.Proofs.Tally
/-! The books of an exchange whose store never fails. Each message sent is under way to the consumer or
counted as received there; each one received is pending or counted as finished, unless its dispatch got
lost beyond the end of the clock; each letter is counted as one; and every courier that waits for a
verdict waits for a delivery that is somewhere, or for one that got lost. So where no courier is left
nothing got lost, and the counters tell what became of every message. -/
namespace Replica

namespace Dispatch

/-- Nothing that is decided asks for another delivery, and that there was nothing to delete is said of
deletions only. -/
def Phase.Calm (m : Message) : Phase → Prop
  | .writing _ outcome => outcome = .noop → m.action.isDeletion = true
  | .closing (.plain outcome) => outcome = .noop → m.action.isDeletion = true
  | .closing (.failed error) => error.isRetryable = false
  | .shelving _ result => result.isOk = true
  | .done result => result.isOk = true
  | _ => True

variable {c : Consumer Store} {d : Dispatch}

theorem calm_receive (registry : Registry) (budget : WaitBudget) (now : Instant) (m : Message) :
    (receive registry budget now m).Calm m := by
  rcases receive_cases registry budget now m with ⟨made, -⟩ |
    ⟨schema, -, ⟨reasons, made⟩ | made | ⟨-, made | ⟨w, made, -⟩⟩⟩ <;> rw [made] <;>
    simp [Phase.Calm, SyncError.isRetryable]

/-- A look that gives an answer leads to no failure. -/
theorem calm_onProbe (backoff : Backoff) (now : Instant) (w : DependencyWait) (found : Bool) (m : Message) :
    (onProbe backoff now w (.ok found)).Calm m := by
  cases found with
  | true =>
    rcases await_cases w.schema w.since w.deadline now w.later with loads | ⟨next, looks, -⟩
    · simp [onProbe, loads, Phase.Calm]
    · simp [onProbe, looks, Phase.Calm]
  | false =>
    unfold onProbe
    cases w.wait.pause? backoff now <;> simp [Phase.Calm]

theorem calm_onLoad (schema : Schema) (m : Message) (current : Option Record) :
    (onLoad schema m (.ok current)).Calm m := by
  rcases onLoad_cases schema m current with ⟨record, outcome, made, merges⟩ | ⟨made, -⟩ |
    ⟨reasons, made, -⟩ <;> rw [made]
  · rintro rfl
    cases current with
    | none =>
      obtain ⟨deletion, -⟩ | ⟨-, -, -, reported⟩ := Resolution.merges_none_iff.1 merges
      · exact deletion
      · cases reported
    | some old =>
      obtain ⟨-, -, -, reported⟩ := Resolution.merges_some_iff.1 merges
      cases reported
  · simp [Phase.Calm]
  · simp [Phase.Calm, SyncError.isRetryable]

theorem calm_onWrite {m : Message} {outcome : Outcome} (calm : outcome = .noop → m.action.isDeletion = true)
    (upsert : Upsert) : (onWrite outcome (.ok upsert)).Calm m := by
  cases upsert with
  | stale current => simp [onWrite, Phase.Calm]
  | _ => exact calm

/-- An ending that is no failure to be mended is acknowledged. -/
theorem isOk_of_closing {m : Message} {ending : Ending} (calm : (Phase.closing ending).Calm m) :
    (ending.result m).isOk = true := by
  cases ending with
  | failed error =>
    have final : error.isRetryable = false := calm
    simp [Ending.result, final, Except.isOk, Except.toBool]
  | _ => rfl

/-- A store that is told no failures keeps every dispatch calm. -/
theorem calm_step (backend : c.backend = Store.backend) (now : Instant) {desk : Desk Store}
    (willing : desk.store.failingWrites = 0) (calm : d.phase.Calm d.message) :
    (d.step c now desk).2.phase.Calm d.message ∧ (d.step c now desk).1.store.failingWrites = 0 := by
  unfold step
  cases phase : d.phase with
  | arrived => exact ⟨calm_receive .., willing⟩
  | probing w =>
    simp only [backend, Store.backend, Backend.probeByLoad]
    exact ⟨calm_onProbe .., willing⟩
  | pausing until_ w => exact ⟨trivial, willing⟩
  | loading schema =>
    simp only [backend, Store.backend]
    exact ⟨calm_onLoad .., willing⟩
  | writing record outcome =>
    rw [phase] at calm
    have written : desk.store.upsertIfNewer record =
        (.ok (desk.store.records.upsert record).1,
          { desk.store with records := (desk.store.records.upsert record).2 }) := by
      simp [Store.upsertIfNewer, willing]
    simp only [backend, Store.backend, written]
    exact ⟨calm_onWrite calm _, willing⟩
  | closing ending =>
    rw [phase] at calm
    have fine := isOk_of_closing calm
    dsimp only
    split
    · exact ⟨fine, willing⟩
    · exact ⟨fine, willing⟩
  | shelving letter result =>
    rw [phase] at calm
    refine ⟨calm, ?_⟩
    dsimp only
    split <;> exact willing
  | done result =>
    rw [phase] at calm
    exact ⟨by simpa [phase] using calm, willing⟩
  | beyondClock => exact ⟨by simp [phase, Phase.Calm], willing⟩

/-- The dispatch of a deletion whose end is not counted yet. -/
def isOpenDeletion (d : Dispatch) : Bool :=
  d.message.action.isDeletion && (d.phase.isArrived || d.phase.isPending)

/-- Only the end of the dispatch of a deletion is counted as a deletion of nothing. -/
theorem noop_step (c : Consumer Store) (now : Instant) (desk : Desk Store) (sound : d.phase.Sound)
    (calm : d.phase.Calm d.message) :
    (d.step c now desk).1.stats.noop + (d.step c now desk).2.isOpenDeletion.toNat ≤
      desk.stats.noop + d.isOpenDeletion.toNat := by
  have arrived := (d.received_step c now desk).2
  unfold isOpenDeletion
  rw [message_step, arrived, Bool.false_or]
  rcases stats_step c now desk d with ⟨phase, stats, pending⟩ | ⟨ending, phase, stats, closed, -⟩ |
    ⟨stats, same, -⟩
  · rw [stats, phase, pending]
    simp [Phase.isArrived]
  · rw [phase] at sound calm
    have raised := Ending.at_count (m := d.message) sound desk.stats .noop
    simp only [Stats.at_] at raised
    rw [stats, closed, phase, raised, Bool.and_false]
    split
    · rename_i named
      have deletion : d.message.action.isDeletion = true := by
        cases ending with
        | plain outcome =>
          cases outcome <;> first | exact calm rfl | simp [Ending.result, Counter.ofResult] at named
        | timedOut missing waited =>
          cases forced : d.message.isForceSync <;> simp [Ending.result, Counter.ofResult, forced] at named
        | failed error =>
          have final : error.isRetryable = false := calm
          simp [Ending.result, Counter.ofResult, final] at named
      simp [deletion, Phase.isArrived, Phase.isPending]
    · simp
  · rw [stats, same]
    cases d.message.action.isDeletion <;> cases d.phase.isPending <;> simp

end Dispatch

namespace Courier

/-- The courier is at its first delivery. -/
def Phase.IsFirst : Phase → Prop
  | .attempt n | .resting _ n | .offering n | .queued n | .awaiting n => n = 0
  | .shelving => False
  | .leaving => True

/-- The courier has yet to put its delivery on the line. -/
def Phase.isComing : Phase → Bool
  | .attempt _ | .resting _ _ | .offering _ | .queued _ => true
  | _ => false

end Courier

namespace Exchange

/-! ### Who is counted where -/

/-- The courier has yet to put its delivery on the line. -/
def isComing : Job → Bool
  | .courier _ phase => phase.isComing
  | _ => false

/-- The courier waits for a verdict. -/
def isAwaiting : Job → Bool
  | .courier _ (.awaiting _) => true
  | _ => false

/-- A delivery was taken from the line, and no verdict was given yet. -/
def isHolding : Job → Bool
  | .receiver (.holding _) => true
  | .worker w =>
    match w.phase with
    | .releasing => false
    | _ => true
  | _ => false

/-- A message was counted as received, and how its dispatch ended is not counted yet. -/
def isPending : Job → Bool
  | .worker w => w.dispatch.phase.isPending
  | _ => false

/-- A letter was counted and is about to be handed over. -/
def isShelving : Job → Bool
  | .worker w => w.dispatch.isShelving
  | _ => false

/-- A deletion whose end is not counted yet. -/
def isOpenDeletion : Job → Bool
  | .courier m phase => phase.isComing && m.action.isDeletion
  | .receiver (.holding d) => d.message.action.isDeletion
  | .worker w => w.dispatch.isOpenDeletion
  | _ => false

/-- A task that asks for no second delivery. -/
def Calm : Job → Prop
  | .courier _ phase => phase.IsFirst
  | .receiver (.holding d) => d.replyTo ≠ none
  | .worker w => w.label = none ∧ w.replyTo ≠ none ∧ w.dispatch.phase.Sound ∧
      w.dispatch.phase.Calm w.dispatch.message ∧
      match w.phase with
      | .dispatching => True
      | .settling result => w.dispatch.phase = .done result
      | .releasing => ∃ result, w.dispatch.phase = .done result
  | _ => True

/-- What the tasks share is as it should be where nothing fails. -/
structure Orderly (x : Exchange Store) : Prop where
  open_ : x.line.closed = false
  addressed : ∀ d ∈ x.line.queue, d.replyTo ≠ none
  acks : ∀ reply ∈ x.replies, reply.verdict = .ack
  willing : x.desk.store.failingWrites = 0

/-- A deletion is on the line. -/
def deletionsOn (line : Line) : Nat := line.queue.countP (·.message.action.isDeletion)

/-- What a step of a task, which the tasks `new` take the place of, moves from one count to another;
`gone` dispatches got lost by it. -/
structure Moved (x after : Exchange Store) (job : Job) (new : List Job) (gone : Nat) : Prop where
  orderly : after.Orderly
  calm : ∀ job ∈ new, Calm job
  clock : after.beyondClock = true → x.beyondClock = true ∨ 0 < gone
  /-- No task sends a message. -/
  couriers : new.countP isCourier ≤ (isCourier job).toNat
  outstanding : after.outstanding + (isCourier job).toNat = x.outstanding + new.countP isCourier
  awaited : new.countP isAwaiting + x.line.queue.length + (isHolding job).toNat + x.replies.length =
    (isAwaiting job).toNat + after.line.queue.length + new.countP isHolding + after.replies.length + gone
  received : after.desk.stats.received + after.line.queue.length + new.countP isUncounted +
      new.countP isComing =
    x.desk.stats.received + x.line.queue.length + (isUncounted job).toNat + (isComing job).toNat
  finished : after.desk.stats.received + x.desk.stats.finished + (isPending job).toNat =
    x.desk.stats.received + after.desk.stats.finished + new.countP isPending + gone
  setAside : after.desk.stats.escalated + after.desk.stats.deadLettered + x.desk.letters.length +
      (isShelving job).toNat =
    x.desk.stats.escalated + x.desk.stats.deadLettered + after.desk.letters.length +
      new.countP isShelving
  noop : after.desk.stats.noop + deletionsOn after.line + new.countP isOpenDeletion ≤
    x.desk.stats.noop + deletionsOn x.line + (isOpenDeletion job).toNat

variable {setup : Setup Store} {now : Instant} {x : Exchange Store} {id : Nat}

theorem countP_singleton (f : Job → Bool) (job : Job) : [job].countP f = (f job).toNat := by
  cases counted : f job <;> simp [counted]

/-- A courier that meets no failure makes one delivery and leaves. -/
theorem moved_courier (attempts : 0 < setup.retry.maxAttempts) (orderly : x.Orderly) {m : Message}
    {phase : Courier.Phase} (first : phase.IsFirst) (some_ : 0 < x.outstanding)
    {after : Exchange Store} {next : Option Courier.Phase} {es : List Post.Event}
    (steps : Post.Steps setup.retry x id m phase after next es) :
    Moved x after (.courier m phase) (next.map (.courier m)).toList 0 := by
  have fine := orderly
  obtain ⟨open_, addressed, acks, willing⟩ := orderly
  cases steps with
  | begun more goesOn =>
    obtain rfl : _ = 0 := first
    rcases goesOn with rfl | ⟨until_, rfl⟩ <;>
      exact ⟨fine, by simp [Calm, Courier.Phase.IsFirst], .inl, Nat.le_refl _, rfl, rfl, rfl, rfl, rfl,
        Nat.le_refl _⟩
  | spent none =>
    obtain rfl : _ = 0 := first
    exact absurd attempts none
  | rested =>
    have still : Calm (.courier m (.offering _)) := first
    exact ⟨fine, by simpa using still, .inl, Nat.le_refl _, rfl, rfl, rfl, rfl, rfl, Nat.le_refl _⟩
  | refused offers gone => simp [open_] at gone
  | enlisted =>
    have still : Calm (.courier m (.queued _)) := first
    exact ⟨⟨open_, addressed, acks, willing⟩, by simpa using still, .inl, Nat.le_refl _, rfl, rfl, rfl, rfl,
      rfl, Nat.le_refl _⟩
  | @put _ n line offers receiving still queue =>
    have longer : line.queue.length = x.line.queue.length + 1 := by simp [queue]
    have deletions : deletionsOn line = deletionsOn x.line + m.action.isDeletion.toNat := by
      rw [deletionsOn, queue, List.countP_append, List.countP_singleton, deletionsOn]
      cases m.action.isDeletion <;> rfl
    have known : ∀ d ∈ line.queue, d.replyTo ≠ none := by
      intro d there
      rcases List.mem_append.1 (queue ▸ there) with old | new
      · exact addressed d old
      · obtain rfl := List.mem_singleton.1 new
        simp
    have calm : Calm (.courier m (.awaiting n)) := by rcases offers with rfl | rfl <;> exact first
    rcases offers with rfl | rfl <;>
      refine ⟨⟨still, known, acks, willing⟩, by simpa using calm, .inl, Nat.le_refl _, rfl, ?_, ?_, rfl, rfl,
        ?_⟩ <;>
      simp [isAwaiting, isHolding, isUncounted, isComing, isOpenDeletion, Courier.Phase.isComing, longer,
        deletions] <;>
      omega
  | @acked n reply found good =>
    have fewer : (x.replies.eraseP (·.recipient == id)).length + 1 = x.replies.length := by
      have one := List.length_eraseP_of_mem (List.mem_of_find?_eq_some found) (List.find?_some found)
      have some_ := List.length_pos_of_mem (List.mem_of_find?_eq_some found)
      omega
    refine ⟨⟨open_, addressed, fun reply there => acks reply (List.mem_of_mem_eraseP there), willing⟩,
      by simp [Calm, Courier.Phase.IsFirst], .inl, Nat.le_refl _, rfl, ?_, rfl, rfl, rfl, Nat.le_refl _⟩
    simp [isAwaiting, isHolding]
    omega
  | failed found bad => exact absurd (acks _ (List.mem_of_find?_eq_some found)) bad
  | shelved => exact first.elim
  | left =>
    refine ⟨⟨open_, addressed, acks, willing⟩, by simp, .inl, Nat.zero_le _, ?_, rfl, rfl, rfl, rfl,
      Nat.le_refl _⟩
    simp [isCourier]
    omega

/-- The receiver takes a delivery from the line, and hands it to a worker. -/
theorem moved_receiver (orderly : x.Orderly) {r : Receiver} (calm : Calm (.receiver r)) :
    Moved x (receiverStep now x r).shared (.receiver r)
      ((receiverStep now x r).next.toList ++ (receiverStep now x r).spawned) 0 := by
  have fine := orderly
  obtain ⟨open_, addressed, acks, willing⟩ := orderly
  cases r with
  | receiving =>
    unfold receiverStep
    cases popped : x.line.pop? with
    | none => exact ⟨fine, by simp [Calm], .inl, Nat.le_refl _, rfl, rfl, rfl, rfl, rfl, Nat.le_refl _⟩
    | some taken =>
      obtain ⟨d, line⟩ := taken
      obtain ⟨queue, closed⟩ := Post.queue_of_pop? popped
      obtain ⟨own, known⟩ := List.forall_mem_cons.1 (queue ▸ addressed)
      have deletions : deletionsOn x.line = deletionsOn line + d.message.action.isDeletion.toNat := by
        rw [deletionsOn, queue, List.countP_cons, deletionsOn]
        cases d.message.action.isDeletion <;> rfl
      refine ⟨⟨closed.trans open_, known, acks, willing⟩, by simpa [Calm] using own, .inl, Nat.le_refl _, rfl,
        ?_, ?_, rfl, rfl, ?_⟩
      · simp [isAwaiting, isHolding, queue]
      · simp [isUncounted, isComing, queue]
        omega
      · simp only [Option.toList_some, List.append_nil, countP_singleton, deletions]
        simp [isOpenDeletion]
        omega
  | holding d =>
    have own : d.replyTo ≠ none := calm
    refine ⟨⟨open_, addressed, acks, willing⟩, ?_, .inl, Nat.le_refl _, rfl, rfl, rfl, rfl, rfl, ?_⟩
    · simp [receiverStep, Calm, own, Dispatch.Phase.Sound, Dispatch.Phase.Calm]
    · simp only [receiverStep, Option.toList_some, List.singleton_append, List.countP_cons_of_neg,
        countP_singleton, Bool.false_eq_true, not_false_eq_true, isOpenDeletion]
      simp [Dispatch.isOpenDeletion, Dispatch.Phase.isArrived]
  | draining =>
    exact ⟨⟨open_, addressed, acks, willing⟩, by simp [receiverStep], .inl, Nat.le_refl _, rfl, rfl, rfl, rfl,
      rfl, Nat.le_refl _⟩

section Worker

variable (backend : setup.consumer.backend = Store.backend) (keeps : setup.consumer.keepsLetters = true)
  (orderly : x.Orderly) {w : Worker} (calm : Calm (.worker w))

/-- Letters handed over are those that were about to be. -/
theorem length_letters_step (keeps : setup.consumer.keepsLetters = true) (now : Instant) (desk : Desk Store)
    (d : Dispatch) :
    (d.step setup.consumer now desk).1.letters.length = desk.letters.length + d.isShelving.toNat := by
  rw [Dispatch.letters_step, if_pos keeps, List.length_append, Dispatch.isShelving]
  cases d.phase.letter? <;> rfl

include backend keeps orderly calm

/-- The worker's dispatch makes its step, and the worker goes on. -/
theorem moved_dispatch (going : w.phase = .dispatching) {later : Worker} (label : later.label = w.label)
    (replyTo : later.replyTo = w.replyTo)
    (dispatch : later.dispatch = (w.dispatch.step setup.consumer now x.desk).2)
    (phase : later.phase = .dispatching ∨
      ∃ result, later.dispatch.phase = .done result ∧ later.phase = .settling result) :
    Moved x { x with desk := (w.dispatch.step setup.consumer now x.desk).1 } (.worker w) [.worker later] 0 := by
  obtain ⟨unlabelled, own, sound, quiet, -⟩ := calm
  obtain ⟨open_, addressed, acks, willing⟩ := orderly
  obtain ⟨stillQuiet, stillWilling⟩ := Dispatch.calm_step backend now willing quiet
  obtain ⟨counted, further⟩ := w.dispatch.received_step setup.consumer now x.desk
  have stillSound := (Dispatch.kept_sound setup.consumer).own now x.desk w.dispatch trivial sound
  have balance := Dispatch.balance_step setup.consumer now x.desk sound
  have named := Dispatch.setAside_step setup.consumer now x.desk sound
  have handed := length_letters_step keeps now x.desk w.dispatch
  have noop := Dispatch.noop_step setup.consumer now x.desk sound quiet
  rw [← dispatch] at stillQuiet stillSound further balance named noop
  have message : later.dispatch.message = w.dispatch.message := by rw [dispatch, Dispatch.message_step]
  have held : isHolding (.worker later) = true ∧ isUncounted (.worker later) = false := by
    rcases phase with phase | ⟨result, -, phase⟩ <;> simp [isHolding, isUncounted, phase, further]
  have before : isHolding (.worker w) = true ∧ isUncounted (.worker w) = w.dispatch.phase.isArrived := by
    simp [isHolding, isUncounted, going]
  refine ⟨⟨open_, addressed, acks, stillWilling⟩, ?_, .inl, Nat.le_refl _, rfl, ?_, ?_, ?_, ?_, ?_⟩
  · rw [List.forall_mem_singleton]
    refine ⟨label.trans unlabelled, replyTo ▸ own, stillSound, message ▸ stillQuiet, ?_⟩
    rcases phase with phase | ⟨result, done, phase⟩ <;> rw [phase]
    · trivial
    · exact done
  · simp [isAwaiting, held.1, before.1]
  · rw [countP_singleton, countP_singleton, held.2, before.2]
    change _ + x.line.queue.length + 0 + 0 = _ + x.line.queue.length + _ + 0
    dsimp only
    omega
  · rw [countP_singleton]
    exact balance
  · rw [countP_singleton]
    change _ + _ + _ + w.dispatch.isShelving.toNat = _ + _ + _ + later.dispatch.isShelving.toNat
    dsimp only
    omega
  · rw [countP_singleton]
    change _ + deletionsOn x.line + later.dispatch.isOpenDeletion.toNat ≤
      _ + deletionsOn x.line + w.dispatch.isOpenDeletion.toNat
    dsimp only
    omega

/-- The worker's dispatch reaches beyond the end of the clock, and the worker is gone without a verdict. -/
theorem moved_lost (going : w.phase = .dispatching)
    (beyond : (w.dispatch.step setup.consumer now x.desk).2.phase = .beyondClock) :
    Moved x { x with desk := (w.dispatch.step setup.consumer now x.desk).1, beyondClock := true }
      (.worker w) [] 1 := by
  obtain ⟨unlabelled, own, sound, quiet, -⟩ := calm
  obtain ⟨open_, addressed, acks, willing⟩ := orderly
  have stillWilling := (Dispatch.calm_step backend now willing quiet).2
  have counted := (w.dispatch.received_step setup.consumer now x.desk).1
  have balance := Dispatch.balance_step setup.consumer now x.desk sound
  have named := Dispatch.setAside_step setup.consumer now x.desk sound
  have handed := length_letters_step keeps now x.desk w.dispatch
  have noop := Dispatch.noop_step setup.consumer now x.desk sound quiet
  rw [beyond] at balance
  rw [Dispatch.isShelving, beyond] at named
  refine ⟨⟨open_, addressed, acks, stillWilling⟩, by simp, fun _ => .inr Nat.zero_lt_one, Nat.le_refl _, rfl,
    ?_, ?_, ?_, ?_, ?_⟩
  · simp [isAwaiting, isHolding, going]
    omega
  · simp [isUncounted, isComing, going, counted]
    omega
  · simpa [isPending, Dispatch.Phase.isPending] using balance
  · simp [isShelving, handed]
    simp [Dispatch.Phase.letter?] at named
    omega
  · simp [isOpenDeletion]
    omega

theorem moved_worker :
    ∃ gone, Moved x (workerStep setup now x w).1 (.worker w) ((workerStep setup now x w).2.map .worker).toList
      gone := by
  have ⟨unlabelled, own, sound, quiet, at_⟩ := calm
  have fine := orderly
  obtain ⟨open_, addressed, acks, willing⟩ := fine
  unfold workerStep
  cases phase : w.phase with
  | dispatching =>
    dsimp only
    cases ended : w.dispatch.result? with
    | some result =>
      have done : w.dispatch.phase = .done result := by
        unfold Dispatch.result? at ended
        split at ended <;> simp_all
      refine ⟨0, ⟨orderly, ?_, .inl, Nat.le_refl _, rfl, ?_, ?_, rfl, rfl, Nat.le_refl _⟩⟩
      · simpa [Calm, done, unlabelled, own] using And.intro sound quiet
      · simp [isAwaiting, isHolding, phase]
      · simp [isUncounted, isComing, phase, done, Dispatch.Phase.isArrived]
    | none =>
      dsimp only
      cases reached : (w.dispatch.step setup.consumer now x.desk).2.phase with
      | beyondClock => exact ⟨1, moved_lost backend keeps orderly calm phase reached⟩
      | done result =>
        exact ⟨0, moved_dispatch backend keeps orderly calm phase rfl rfl rfl (.inr ⟨result, reached, rfl⟩)⟩
      | _ => exact ⟨0, moved_dispatch backend keeps orderly calm phase rfl rfl rfl (.inl rfl)⟩
  | settling result =>
    rw [phase] at at_
    have done : w.dispatch.phase = .done result := at_
    obtain ⟨recipient, replyTo⟩ := Option.ne_none_iff_exists'.1 own
    have good : Verdict.ofResult result = .ack := by
      rw [done] at quiet
      cases result with
      | ok outcome => rfl
      | error error => cases quiet
    simp only [unlabelled, reply, replyTo, good]
    refine ⟨0, ⟨⟨open_, addressed, ?_, willing⟩, ?_, .inl, Nat.le_refl _, rfl, ?_, ?_, rfl, rfl, Nat.le_refl _⟩⟩
    · intro reply there
      rcases List.mem_append.1 there with old | new
      · exact acks reply old
      · rw [List.mem_singleton.1 new]
    · simpa [Calm, done, replyTo] using And.intro sound quiet
    · simp [isAwaiting, isHolding, phase]
      omega
    · simp [isUncounted, isComing, phase]
  | releasing =>
    rw [phase] at at_
    obtain ⟨result, done⟩ := at_
    refine ⟨0, ⟨⟨open_, addressed, acks, willing⟩, by simp, .inl, Nat.le_refl _, rfl, ?_, ?_, ?_, ?_, ?_⟩⟩
    · simp [isAwaiting, isHolding, phase]
    · simp [isUncounted, isComing, phase]
    · simp [isPending, done, Dispatch.Phase.isPending]
    · simp [isShelving, Dispatch.isShelving, done, Dispatch.Phase.letter?]
    · simp [isOpenDeletion]

end Worker

theorem moved_timer (orderly : x.Orderly) (until_ : Instant) : Moved x x (.timer until_) [] 0 :=
  ⟨orderly, by simp, .inl, Nat.le_refl _, rfl, rfl, rfl, rfl, rfl, Nat.le_refl _⟩

theorem moved_step (attempts : 0 < setup.retry.maxAttempts) (backend : setup.consumer.backend = Store.backend)
    (keeps : setup.consumer.keepsLetters = true) (orderly : x.Orderly) {job : Job} (calm : Calm job)
    (counted : (isCourier job).toNat ≤ x.outstanding) (ready : (system setup).ready now x id job = true) :
    ∃ gone, Moved x ((system setup).step now x id job).shared job
      (((system setup).step now x id job).next.toList ++ ((system setup).step now x id job).spawned) gone := by
  cases job with
  | courier m phase =>
    cases made : courierStep setup.retry now x id m phase with
    | mk after next =>
      have moved := moved_courier attempts orderly calm counted (Post.steps_courierStep ready made)
      exact ⟨0, by simpa [system, made] using moved⟩
  | receiver r => exact ⟨0, moved_receiver orderly calm⟩
  | worker w =>
    obtain ⟨gone, moved⟩ := moved_worker backend keeps orderly calm
    exact ⟨gone, by simpa [system] using moved⟩
  | timer until_ => exact ⟨0, moved_timer orderly until_⟩

/-! ### The books -/

/-- The books of an exchange with these tasks, where these messages were sent and so many dispatches got
lost beyond the end of the clock. -/
structure Books (sent : List Message) (lost : Nat) (x : Exchange Store) (jobs : List Job) : Prop where
  orderly : x.Orderly
  calm : ∀ job ∈ jobs, Calm job
  clock : x.beyondClock = true → 0 < lost
  outstanding : x.outstanding = jobs.countP isCourier
  /-- Who waits for a verdict waits for what is on the line, in hand, answered or lost. -/
  awaited : jobs.countP isAwaiting =
    x.line.queue.length + jobs.countP isHolding + x.replies.length + lost
  received : x.desk.stats.received + x.line.queue.length + jobs.countP isUncounted +
    jobs.countP isComing = sent.length
  finished : x.desk.stats.received = x.desk.stats.finished + jobs.countP isPending + lost
  setAside : x.desk.stats.escalated + x.desk.stats.deadLettered =
    x.desk.letters.length + jobs.countP isShelving
  noop : x.desk.stats.noop + deletionsOn x.line + jobs.countP isOpenDeletion ≤
    sent.countP (·.action.isDeletion)

section Books

variable {sent : List Message} {lost : Nat} {jobs : List Job}

/-- The books of an exchange at its start. -/
theorem books_start (capacity : Nat) :
    Books [] 0 { desk := { store := {} }, line := .ofCapacity capacity } [] where
  orderly := ⟨rfl, by simp [Line.ofCapacity], by simp, rfl⟩
  calm := by simp
  clock := by simp
  outstanding := rfl
  awaited := rfl
  received := rfl
  finished := rfl
  setAside := rfl
  noop := Nat.le_refl _

theorem Books.perm (books : Books sent lost x jobs) {others : List Job} (same : others.Perm jobs) :
    Books sent lost x others := by
  obtain ⟨orderly, calm, clock, outstanding, awaited, received, finished, setAside, noop⟩ := books
  exact ⟨orderly, fun job there => calm job (same.mem_iff.1 there), clock, by rwa [same.countP_eq],
    by rwa [same.countP_eq, same.countP_eq], by rwa [same.countP_eq, same.countP_eq], by rwa [same.countP_eq],
    by rwa [same.countP_eq], by rwa [same.countP_eq]⟩

/-- The consumer begins to receive. -/
theorem Books.receive (books : Books sent lost x jobs) (permits : Nat) :
    Books sent lost { x with permits } (.receiver .receiving :: jobs) := by
  obtain ⟨⟨open_, addressed, acks, willing⟩, calm, clock, outstanding, awaited, received, finished, setAside,
    noop⟩ := books
  exact ⟨⟨open_, addressed, acks, willing⟩, List.forall_mem_cons.2 ⟨trivial, calm⟩, clock, outstanding, awaited,
    received, finished, setAside, noop⟩

/-- Nobody sends any more. -/
theorem Books.hangUp (books : Books sent lost x jobs) :
    Books sent lost { x with line := { x.line with hungUp := true } } jobs := by
  obtain ⟨⟨open_, addressed, acks, willing⟩, calm, clock, outstanding, awaited, received, finished, setAside,
    noop⟩ := books
  exact ⟨⟨open_, addressed, acks, willing⟩, calm, clock, outstanding, awaited, received, finished, setAside,
    noop⟩

theorem Books.send (books : Books sent lost x jobs) (m : Message) :
    Books (sent ++ [m]) lost { x with outstanding := x.outstanding + 1 } (.courier m (.attempt 0) :: jobs) := by
  obtain ⟨⟨open_, addressed, acks, willing⟩, calm, clock, outstanding, awaited, received, finished, setAside,
    noop⟩ := books
  refine ⟨⟨open_, addressed, acks, willing⟩, List.forall_mem_cons.2 ⟨rfl, calm⟩, clock, ?_, awaited, ?_,
    finished, setAside, ?_⟩
  · rw [List.countP_cons_of_pos rfl, ← outstanding]
  · rw [List.countP_cons_of_neg (by simp [isUncounted]), List.countP_cons_of_pos rfl, List.length_append,
      List.length_singleton, ← received]
    rfl
  · rw [List.countP_append, List.countP_cons, List.countP_singleton]
    simp only [isOpenDeletion, Courier.Phase.isComing, Bool.true_and]
    omega

theorem Books.moved {job : Job} {rest new : List Job} {after : Exchange Store} {gone : Nat}
    (books : Books sent lost x (job :: rest)) (moved : Moved x after job new gone) :
    Books sent (lost + gone) after (new ++ rest) ∧ after.outstanding ≤ x.outstanding := by
  have before (f : Job → Bool) : (job :: rest).countP f = (f job).toNat + rest.countP f := by
    rw [← List.singleton_append, List.countP_append, countP_singleton]
  obtain ⟨-, calm, clock, outstanding, awaited, received, finished, setAside, noop⟩ := books
  simp only [before] at outstanding awaited received finished setAside noop
  have fewer := moved.couriers
  have counted := moved.outstanding
  refine ⟨⟨moved.orderly, ?_, ?_, ?_, ?_, ?_, ?_, ?_, ?_⟩, by omega⟩
  · intro job there
    rcases List.mem_append.1 there with new | old
    · exact moved.calm job new
    · exact calm job (List.mem_cons_of_mem _ old)
  · intro beyond
    rcases moved.clock beyond with earlier | now
    · exact Nat.add_pos_left (clock earlier) _
    · exact Nat.add_pos_right _ now
  all_goals simp only [List.countP_append]
  · omega
  · have shift := moved.awaited
    omega
  · have shift := moved.received
    omega
  · have shift := moved.finished
    omega
  · have shift := moved.setAside
    omega
  · have shift := moved.noop
    omega

/-- Who holds no delivery keeps nothing that is still to be counted or handed over. -/
theorem Calm.idle {job : Job} (calm : Calm job) (free : isHolding job = false) :
    isUncounted job = false ∧ isPending job = false ∧ isShelving job = false := by
  cases job with
  | receiver r =>
    cases r with
    | holding d => cases free
    | _ => exact ⟨rfl, rfl, rfl⟩
  | worker w =>
    obtain ⟨-, -, -, -, at_⟩ := calm
    cases phase : w.phase with
    | releasing =>
      rw [phase] at at_
      obtain ⟨result, done⟩ := at_
      exact ⟨by simp [isUncounted, phase], by simp [isPending, done, Dispatch.Phase.isPending],
        by simp [isShelving, Dispatch.isShelving, done, Dispatch.Phase.letter?]⟩
    | _ => simp [isHolding, phase] at free
  | _ => exact ⟨rfl, rfl, rfl⟩

/-- Where no courier is left, nothing got lost, every message is counted as received and as finished, and
every letter was handed over. -/
theorem Books.balanced (books : Books sent lost x jobs) (idle : x.outstanding = 0) :
    x.beyondClock = false ∧ x.desk.stats.received = sent.length ∧
      x.desk.stats.received = x.desk.stats.finished ∧
      x.desk.stats.escalated + x.desk.stats.deadLettered = x.desk.letters.length ∧
      x.desk.stats.noop ≤ sent.countP (·.action.isDeletion) := by
  obtain ⟨-, calm, clock, outstanding, awaited, received, finished, setAside, noop⟩ := books
  have nobody : ∀ job ∈ jobs, ¬isCourier job = true := List.countP_eq_zero.1 (outstanding ▸ idle)
  have silent : jobs.countP isAwaiting = 0 ∧ jobs.countP isComing = 0 := by
    constructor <;> refine List.countP_eq_zero.2 fun job there => ?_
    all_goals
      have other := nobody job there
      cases job with
      | courier => exact absurd rfl other
      | _ => exact Bool.false_ne_true
  have free : ∀ job ∈ jobs, isHolding job = false := by
    intro job there
    have none : jobs.countP isHolding = 0 := by omega
    simpa using List.countP_eq_zero.1 none job there
  have none (f : Job → Bool) (idle : ∀ job, Calm job → isHolding job = false → f job = false) :
      jobs.countP f = 0 :=
    List.countP_eq_zero.2 fun job there => by simp [idle job (calm job there) (free job there)]
  have uncounted := none isUncounted fun _ calm free => (calm.idle free).1
  have pending := none isPending fun _ calm free => (calm.idle free).2.1
  have shelving := none isShelving fun _ calm free => (calm.idle free).2.2
  refine ⟨?_, by omega, by omega, by omega, by omega⟩
  cases beyond : x.beyondClock with
  | false => rfl
  | true =>
    have some_ := clock beyond
    omega

end Books

end Exchange

end Replica

import Replica.Fixtures
import Replica.Proofs.Delays
import Replica.Proofs.Progress
import Replica.Proofs.Solo
import Replica.Proofs.Unfolding
import Replica.Replay.Basic
/-! Replay one message after another. While one message is under way, courier, receiver and worker take
turns that leave no choice, and the dispatch has the desk to itself. So the whole of bus, permits and clock
comes to a fold over the file. -/
namespace Replica

namespace Replay

open Exchange ExchangeRun Schedule

/-- Between two messages: only the receiver is there, and waits. -/
def rested (setup : Setup Store) (now : Instant) (desk : Desk Store) (nextId : Nat) : ExchangeRun Store :=
  { now, shared := { desk, line := .ofCapacity capacity, permits := setup.limit }, nextId
    waiting := [(0, .receiver .receiving)] }

/-- A message is under way. -/
def underWay (desk : Desk Store) (queue : List Delivery) (replies : List Reply) (permits : Nat) :
    Exchange Store :=
  { desk, line := { Line.ofCapacity capacity with queue }, replies, outstanding := 1, permits }

variable {setup : Setup Store} {now : Instant} {desk : Desk Store} {k : Nat} {m : Message}

abbrev allSettled (s : ExchangeRun Store) : Bool := s.shared.outstanding == 0

/-- The courier brings the message to the receiver, who hands it to a worker. -/
theorem leads_worker (attempts : 0 < setup.retry.maxAttempts) :
    Leads (system setup) allSettled
      { now, shared := underWay desk [] [] setup.limit, nextId := k + 1
        running := [(k, .courier m (.attempt 0))], waiting := [(0, .receiver .receiving)] }
      { now, shared := underWay desk [] [] (setup.limit - 1), nextId := k + 2
        running := [(k + 1, .worker { dispatch := { message := m }, replyTo := some k })]
        waiting := [(k, .courier m (.awaiting 0)), (0, .receiver .receiving)] } := by
  let bring (phase : Courier.Phase) : ExchangeRun Store :=
    { now, shared := underWay desk [] [] setup.limit, nextId := k + 1
      running := [(k, .courier m phase)], waiting := [(0, .receiver .receiving)] }
  let handOver (queue : List Delivery) (r : Receiver) : ExchangeRun Store :=
    { now, shared := underWay desk queue [] setup.limit, nextId := k + 1
      running := [(0, .receiver r)], waiting := [(k, .courier m (.awaiting 0))] }
  have offers : Leads (system setup) allSettled (bring (.attempt 0)) (bring (.offering 0)) := by
    refine .of_turn rfl ?_
    simp [bring, turn, wake, Schedule.spawn, resume, system, courierReady, courierStep, receiverReady, attempts,
      Retry.delayBefore, underWay, Line.ofCapacity]
  have puts : Leads (system setup) allSettled (bring (.offering 0)) (handOver [⟨m, 0, some k⟩] .receiving) := by
    refine .of_turn rfl ?_
    simp [bring, handOver, turn, wake, Schedule.spawn, resume, system, courierReady, courierStep, receiverReady,
      underWay, Line.ofCapacity, Line.hasRoom, Line.push, capacity]
  have takes : Leads (system setup) allSettled (handOver [⟨m, 0, some k⟩] .receiving)
      (handOver [] (.holding ⟨m, 0, some k⟩)) := by
    refine .of_turn rfl ?_
    simp [handOver, turn, wake, Schedule.spawn, resume, system, courierReady, receiverReady, receiverStep,
      underWay, Line.ofCapacity, Line.pop?, Setup.limit]
  refine (offers.trans puts).trans (takes.trans (.of_turn rfl ?_))
  simp [handOver, turn, wake, Schedule.spawn, resume, system, courierReady, receiverReady, receiverStep,
    underWay, Line.ofCapacity, Setup.limit, workerReady, Dispatch.ready]

/-- Courier and receiver wait for the worker, who is about to go on or waits for the clock. -/
def working (setup : Setup Store) (k : Nat) (m : Message) (s : Lone Store) : ExchangeRun Store :=
  resume (system setup)
    { now := s.now, shared := underWay s.desk [] [] (setup.limit - 1), nextId := k + 2
      waiting := [(k, .courier m (.awaiting 0)), (0, .receiver .receiving)] }
    (k + 1) (.worker (workerOf k s.dispatch))

theorem leads_of_goes {s t : Lone Store} (goes : Lone.Goes setup.consumer s t)
    (within : t.dispatch.phase ≠ .beyondClock) :
    Leads (system setup) allSettled (working setup k m s) (working setup k m t) := by
  cases goes with
  | step ready =>
    have going (result : DispatchResult) : s.dispatch.phase ≠ .done result := by
      intro done
      simp [Dispatch.ready, done] at ready
    have run : working setup k m s =
        { now := s.now, shared := underWay s.desk [] [] (setup.limit - 1), nextId := k + 2
          running := [(k + 1, .worker { dispatch := s.dispatch, replyTo := some k })]
          waiting := [(k, .courier m (.awaiting 0)), (0, .receiver .receiving)] } := by
      simp [working, resume, system, workerOf_of_not_done going, workerReady, ready]
    have made : (system setup).step s.now (underWay s.desk [] [] (setup.limit - 1)) (k + 1)
        (.worker { dispatch := s.dispatch, replyTo := some k }) =
        { shared := underWay (s.dispatch.step setup.consumer s.now s.desk).1 [] [] (setup.limit - 1)
          next := some (.worker (workerOf k (s.dispatch.step setup.consumer s.now s.desk).2)) } := by
      have stepped := workerStep_dispatching (underWay s.desk [] [] (setup.limit - 1)) k going within
      simp only [system, stepped]
      rfl
    refine .of_turn ?_ ?_
    · rw [run]
      rfl
    · rw [run]
      refine turn_of_alone rfl ready made ?_
      simp [system, courierReady, receiverReady, underWay, Line.ofCapacity]
  | @rest until_ w pausing early =>
    have going (result : DispatchResult) : s.dispatch.phase ≠ .done result := by simp [pausing]
    have blocked : ¬until_ ≤ s.now := Nat.not_le.2 early
    refine .of_turn ?_ ?_
    · unfold working allSettled
      rw [shared_resume]
      rfl
    · have later : max s.now until_ = until_ := Nat.max_eq_right (Nat.le_of_lt early)
      simp [working, resume, turn, nextWake, wake, system, workerOf_of_not_done going, workerReady, Dispatch.ready,
        Dispatch.wakeAt, pausing, blocked, later, courierReady, receiverReady, underWay, Line.ofCapacity]

theorem leads_of_reaches {s t : Lone Store} (reaches : Lone.Reaches setup.consumer s t)
    {result : DispatchResult} (done : t.dispatch.phase = .done result) :
    Leads (system setup) allSettled (working setup k m s) (working setup k m t) := by
  suffices s.dispatch.phase ≠ .beyondClock ∧
      Leads (system setup) allSettled (working setup k m s) (working setup k m t) from this.2
  induction reaches using Relation.ReflTransGen.head_induction_on with
  | refl => exact ⟨by simp [done], .refl _⟩
  | head goes _ ih =>
    refine ⟨?_, (leads_of_goes goes ih.1).trans ih.2⟩
    cases goes with
    | step ready =>
      intro beyond
      simp [Dispatch.ready, beyond] at ready
    | rest pausing => simp [pausing]

/-- The worker reports to the courier, gives the permit back, and both finish. -/
theorem leads_rested {outcome : Outcome} :
    Leads (system setup) allSettled (working setup k m ⟨now, desk, ⟨m, .done (.ok outcome)⟩⟩)
      (rested setup now desk (k + 2)) := by
  let last (replies : List Reply) (permits : Nat) (running : List (Nat × Job)) : ExchangeRun Store :=
    { now, shared := underWay desk [] replies permits, nextId := k + 2, running
      waiting := [(0, .receiver .receiving)] }
  let finished : Worker := { dispatch := ⟨m, .done (.ok outcome)⟩, phase := .releasing, replyTo := some k }
  have limit : 0 < setup.limit := Nat.lt_of_lt_of_le Nat.zero_lt_one (Nat.le_max_right ..)
  have settles : Leads (system setup) allSettled (working setup k m ⟨now, desk, ⟨m, .done (.ok outcome)⟩⟩)
      (last [⟨k, .ack, now⟩] (setup.limit - 1) [(k + 1, .worker finished), (k, .courier m (.awaiting 0))]) := by
    refine .of_turn ?_ ?_
    · unfold working allSettled
      rw [shared_resume]
      rfl
    · simp [last, finished, working, workerOf, resume, turn, wake, Schedule.spawn, system, workerReady, workerStep,
        courierReady, receiverReady, reply, Verdict.ofResult, underWay, Line.ofCapacity]
  have releases : Leads (system setup) allSettled
      (last [⟨k, .ack, now⟩] (setup.limit - 1) [(k + 1, .worker finished), (k, .courier m (.awaiting 0))])
      (last [⟨k, .ack, now⟩] setup.limit [(k, .courier m (.awaiting 0))]) := by
    refine .of_turn rfl ?_
    simp [last, finished, turn, wake, Schedule.spawn, system, workerReady, workerStep, receiverReady, underWay,
      Line.ofCapacity]
    omega
  have acknowledged : Leads (system setup) allSettled
      (last [⟨k, .ack, now⟩] setup.limit [(k, .courier m (.awaiting 0))])
      (last [] setup.limit [(k, .courier m .leaving)]) := by
    refine .of_turn rfl ?_
    simp [last, turn, wake, Schedule.spawn, resume, system, courierReady, courierStep, takeReply?, receiverReady,
      underWay, Line.ofCapacity]
  refine (settles.trans releases).trans (acknowledged.trans (.of_turn rfl ?_))
  simp [last, rested, turn, wake, Schedule.spawn, system, courierReady, courierStep, receiverReady, underWay,
    Line.ofCapacity]

/-! ### A whole file -/

/-- Nothing is under way. At the very start the receiver has not yet begun to wait. -/
def Rests (setup : Setup Store) (now : Instant) (desk : Desk Store) (k : Nat) (s : ExchangeRun Store) : Prop :=
  s = rested setup now desk k ∨
    s = { rested setup now desk k with running := [(0, .receiver .receiving)], waiting := [] }

/-- The budget of each message, counted from when the message before is over, stays within the clock. -/
def FitsClock (registry : Registry) (budget : WaitBudget) : Instant → Tally → List Message → Prop
  | _, _, [] => True
  | now, t, m :: messages =>
    now + budget.budgetFor m.isForceSync < Instant.clockEnd ∧
      FitsClock registry budget (t.overAt registry budget now m) (t.apply registry m) messages

instance decidableFitsClock (registry : Registry) (budget : WaitBudget) :
    (now : Instant) → (t : Tally) → (messages : List Message) →
      Decidable (FitsClock registry budget now t messages)
  | _, _, [] => .isTrue trivial
  | now, t, m :: messages =>
    haveI := decidableFitsClock registry budget (t.overAt registry budget now m) (t.apply registry m) messages
    inferInstanceAs (Decidable (_ ∧ _))

theorem overAt_mono {registry : Registry} {budget : WaitBudget} {t : Tally} {a b : Instant} (le : a ≤ b) :
    t.overAt registry budget a m ≤ t.overAt registry budget b m := by
  have ceilings := Instant.ceilMillis_mono (Nat.add_le_add_right le (budget.budgetFor m.isForceSync))
  unfold Tally.overAt
  split
  · exact le
  · split
    · split
      · exact le
      · exact ceilings
    · exact le

theorem FitsClock.sooner {registry : Registry} {budget : WaitBudget} {messages : List Message} {t : Tally}
    {a b : Instant} (fits : FitsClock registry budget b t messages) (le : a ≤ b) :
    FitsClock registry budget a t messages := by
  induction messages generalizing a b t with
  | nil => trivial
  | cons m messages ih =>
    have less := Nat.add_le_add_right le (budget.budgetFor m.isForceSync)
    exact ⟨Nat.lt_of_le_of_lt less fits.1, ih fits.2 (overAt_mono le)⟩

variable {s : ExchangeRun Store} {t : Tally}

/-- A message that is sent gets to a worker. -/
theorem Rests.leads_send (rests : Rests setup now desk k s) (attempts : 0 < setup.retry.maxAttempts) :
    Leads (system setup) allSettled (s.send m).2 (working setup k m ⟨now, desk, { message := m }⟩) := by
  rcases rests with rfl | rfl
  · exact leads_worker attempts
  · refine .trans (.of_turn rfl ?_) (leads_worker attempts)
    simp [rested, ExchangeRun.send, turn, Schedule.spawn, system, receiverReady, underWay, Line.ofCapacity]

/-- One message after another. -/
theorem Rests.settled (rests : Rests setup now desk k s) (attempts : 0 < setup.retry.maxAttempts)
    (keeps : setup.consumer.keepsLetters = true) (backend : setup.consumer.backend = Store.backend)
    (rising : ∀ n, 0 < setup.consumer.budget.backoff.delayAfter n) (tells : t.Tells desk) (m : Message)
    (fits : now + setup.consumer.budget.budgetFor m.isForceSync < Instant.clockEnd) :
    ∃ fuel later after next, Rests setup later after (k + 2) next ∧
      (t.apply setup.consumer.registry m).Tells after ∧
      later ≤ t.overAt setup.consumer.registry setup.consumer.budget now m ∧
      ∀ more, (s.send m).2.settled setup (more + fuel) = some next := by
  obtain ⟨later, after, outcome, reaches, told, -, inTime⟩ := Lone.endsWith_apply keeps backend rising tells m fits
  have leads := (rests.leads_send attempts).trans ((leads_of_reaches reaches rfl).trans leads_rested)
  obtain ⟨fuel, ran⟩ := leads.exists_runUntil rfl
  exact ⟨fuel, later, after, _, .inl rfl, told, inTime, ran⟩

theorem Rests.sendAll (rests : Rests setup now desk k s) (attempts : 0 < setup.retry.maxAttempts)
    (keeps : setup.consumer.keepsLetters = true) (backend : setup.consumer.backend = Store.backend)
    (rising : ∀ n, 0 < setup.consumer.budget.backoff.delayAfter n) (tells : t.Tells desk)
    {messages : List Message} (fits : FitsClock setup.consumer.registry setup.consumer.budget now t messages) :
    ∃ fuel later after next last, Rests setup later after next last ∧
      (messages.foldl (Tally.apply setup.consumer.registry) t).Tells after ∧
      ∀ more, sendAll setup (more + fuel) true messages s = some last := by
  induction messages generalizing now desk k s t with
  | nil => exact ⟨0, now, desk, k, s, rests, tells, fun _ => rfl⟩
  | cons m messages ih =>
    obtain ⟨first, later, after, next, rests, tells, inTime, ran⟩ :=
      rests.settled attempts keeps backend rising tells m fits.1
    obtain ⟨others, final⟩ := ih rests tells (fits.2.sooner inTime)
    obtain ⟨later, after, k, last, rests, tells, sent⟩ := final
    refine ⟨first + others, later, after, k, last, rests, tells, fun more => ?_⟩
    have some : (s.send m).2.settled setup (more + (first + others)) = some next := by
      rw [Nat.add_comm first, ← Nat.add_assoc]
      exact ran _
    have rest : Replay.sendAll setup (more + (first + others)) true messages next = .some last := by
      rw [← Nat.add_assoc]
      exact sent _
    simp only [Replay.sendAll, if_true, some, rest, Option.bind_eq_bind, Option.bind_some]

/-- When nobody sends any more, the receiver finishes. -/
theorem Rests.finishes (rests : Rests setup now desk k s) :
    ∃ fuel last, last.shared.desk = desk ∧
      ∀ more, (s.hangUp setup).runUntil setup (more + fuel) (·.receiverEnd.isSome) = some last := by
  let ending (phase : Receiver) : ExchangeRun Store :=
    { now, nextId := k, running := [(0, .receiver phase)]
      shared := { desk, line := { Line.ofCapacity capacity with hungUp := true }, permits := setup.limit } }
  have all : setup.allPermits ≤ setup.limit := Nat.min_le_left ..
  have hungUp : s.hangUp setup = ending .receiving := by
    rcases rests with rfl | rfl <;>
      simp [ending, rested, ExchangeRun.hangUp, ExchangeRun.change, poke, wake, system, receiverReady]
  have drains : Leads (system setup) (·.shared.receiverEnd.isSome) (ending .receiving) (ending .draining) := by
    refine .of_turn rfl ?_
    simp [ending, turn, wake, Schedule.spawn, resume, system, receiverReady, receiverStep, Line.pop?,
      Line.ofCapacity, all]
  have ends : Leads (system setup) (·.shared.receiverEnd.isSome) (ending .draining)
      { now, nextId := k
        shared :=
          { desk, line := { Line.ofCapacity capacity with hungUp := true }, permits := setup.limit
            receiverEnd := some now } } := by
    refine .of_turn rfl ?_
    simp [ending, turn, wake, Schedule.spawn, system, receiverReady, receiverStep, all]
  obtain ⟨fuel, ran⟩ := (drains.trans ends).exists_runUntil rfl
  rw [hungUp]
  exact ⟨fuel, _, rfl, ran⟩

/-- What is reported of a run that has come to its end. -/
def reportOf (config : Subscriber.Config) (options : ReplayOptions) (lines : List MessageLine)
    (final : ExchangeRun Store) : ReplayReport where
  records := collect config.registry final.shared.desk.store.records options.includeDeleted
  letters := final.shared.desk.letters
  lines := lines.length
  undecodable := lines.length - (MessageFile.messages lines).length
  stats := final.shared.desk.stats
  took := final.now

theorem run_of_finalRun {config : Subscriber.Config} {options : ReplayOptions} {lines : List MessageLine}
    {fuel : Nat} {final : ExchangeRun Store}
    (ran : finalRun (Replay.setup config options) fuel options.sequential (MessageFile.messages lines) = some final) :
    Replay.run fuel config options lines = some (reportOf config options lines final) := by
  simp only [Replay.run, Option.bind_eq_bind, ran, Option.bind_some]
  rfl

/-- Replay of one message after another is a fold over the messages of the file that never waits. -/
theorem sequential_replay_is_fold (config : Subscriber.Config) (options : ReplayOptions)
    (sequential : options.sequential = true) (rising : ∀ k, 0 < (budget config options).backoff.delayAfter k)
    (lines : List MessageLine)
    (fits : FitsClock config.registry (budget config options) 0 {} (MessageFile.messages lines)) :
    ∃ fuel report, (∀ more, Replay.run (more + fuel) config options lines = some report) ∧
      let sum := (MessageFile.messages lines).foldl (Tally.apply config.registry) {}
      report.records = collect config.registry sum.records options.includeDeleted ∧
      report.letters.map (fun l => (l.message.key, l.message.emittedAt, l.reason)) = sum.letters ∧
      { report.stats with lastError := none } = sum.stats ∧
      report.lines = lines.length ∧
      report.undecodable = lines.length - (MessageFile.messages lines).length := by
  have opens : Rests (Replay.setup config options) 0 { store := {} } 1 (opened (Replay.setup config options)) :=
    .inr rfl
  obtain ⟨sends, later, after, next, last, rests, tells, sent⟩ :=
    opens.sendAll (Nat.zero_lt_succ _) rfl rfl rising (t := {}) ⟨rfl, rfl, rfl⟩ fits
  obtain ⟨finishes, final, same, ended⟩ := rests.finishes
  have settled (fuel : Nat) : last.settled (Replay.setup config options) fuel = some last := by
    rcases rests with rfl | rfl <;> cases fuel <;> rfl
  have ran (more : Nat) : finalRun (Replay.setup config options) (more + (sends + finishes)) true
      (MessageFile.messages lines) = some final := by
    rw [finalRun, Nat.add_comm sends, ← Nat.add_assoc, sent]
    simp only [Option.bind_eq_bind, Option.bind_some, settled]
    rw [Nat.add_assoc, Nat.add_comm finishes, ← Nat.add_assoc]
    exact ended _
  refine ⟨sends + finishes, reportOf config options lines final, fun more => ?_, ?_⟩
  · exact run_of_finalRun (sequential ▸ ran more)
  · simp only [reportOf, same, tells.store]
    exact ⟨rfl, tells.letters, tells.stats, trivial, trivial⟩

/-- A subscriber whose first and longest delay are some time has no delay that is none. -/
theorem delayAfter_pos (config : Subscriber.Config) (options : ReplayOptions)
    (initial : 0 < config.backoff.initial) (max : 0 < config.backoff.max) (k : Nat) :
    0 < (budget config options).backoff.delayAfter k := by
  have doubles : config.backoff.multiplier = 2 := rfl
  exact Backoff.delayAfter_pos initial max (doubles ▸ Binary64.atLeast_two) k

/-- Companies and their employees, who wait for half a second. -/
def staff : Subscriber.Config where
  handlers := [
    { kind := "company", fields := ["name"] },
    { kind := "employee", fields := ["name"], dependencies := [⟨"companyId", "company", false⟩] }]
  wait := { organic := some 500, forceSync := some 500, initialBackoff := some 10, maxBackoff := some 100 }

/-- A file with an employee on both sides of the company. -/
def early : List MessageLine :=
  [Fixtures.employeeCreated "e-1" "Ada" "c-1" ⟨1, by decide⟩,
    Fixtures.companyCreated "c-1" "Acme" ⟨2, by decide⟩,
    Fixtures.employeeCreated "e-2" "Bob" "c-1" ⟨3, by decide⟩].mapIdx fun i m => ⟨i + 1, .ok m⟩

theorem sequential_replay_is_fold_early :
    (∀ k, 0 < (budget staff { sequential := true }).backoff.delayAfter k) ∧
      FitsClock staff.registry (budget staff { sequential := true }) 0 {} (MessageFile.messages early) ∧
      ∃ fuel report, Replay.run fuel staff { sequential := true } early = some report ∧
        report.records.map (·.key) = [⟨"company", "c-1"⟩, ⟨"employee", "e-2"⟩] ∧
        { report.stats with lastError := none } = { received := 3, applied := 2, dropped := 1 } := by
  have fits : FitsClock staff.registry (budget staff { sequential := true }) 0 {} (MessageFile.messages early) := by
    decide +kernel
  have rising := delayAfter_pos staff { sequential := true } (by decide) (by decide)
  refine ⟨rising, fits, ?_⟩
  obtain ⟨fuel, report, ran, records, -, stats, -⟩ :=
    sequential_replay_is_fold staff { sequential := true } rfl rising early fits
  have ran := ran 0
  rw [Nat.zero_add] at ran
  refine ⟨fuel, report, ran, ?_, stats.trans ?_⟩
  · rw [records]
    decide +kernel
  · decide +kernel

end Replay

end Replica

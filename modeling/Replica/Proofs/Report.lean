import Mathlib.Algebra.GroupWithZero.Nat
import Replica.Proofs.Reckoning
import Replica.Proofs.Sequence
import Replica.Replay.Printer
/-! What the report about a file accounts for. While a file is applied its books are kept; when the report
is made no courier is left, so the books are balanced: every message that could be read was received, every
one received has its outcome counted, and the messages set aside are those counted so. The report does not
tell one of the counters, so what it tells falls short by the deletions of entities never seen. -/
namespace Replica

namespace ExchangeRun

open Exchange

/-- The books of a run in which these messages were sent are in order. -/
def InOrder (sent : List Message) (run : ExchangeRun Store) : Prop :=
  ∃ lost, Books sent lost run.shared (run.tasks.map (·.2))

variable {setup : Setup Store} {sent : List Message} {run after : ExchangeRun Store}

theorem InOrder.send (inOrder : InOrder sent run) (m : Message) : InOrder (sent ++ [m]) (run.send m).2 := by
  obtain ⟨lost, books⟩ := inOrder
  cases accepted : run.send m with
  | mk result after =>
    obtain rfl : result = .ok () := by
      have open_ : run.shared.line.closed = false := books.orderly.open_
      simp only [ExchangeRun.send, open_] at accepted
      exact (Prod.mk.inj accepted).1.symm
    obtain ⟨shared, -, tasks⟩ := send_eq_ok accepted
    refine ⟨lost, ?_⟩
    rw [shared]
    refine (books.send m).perm ((tasks.map _).trans ?_)
    rw [List.map_append]
    exact List.perm_append_singleton ..

theorem InOrder.hangUp (inOrder : InOrder sent run) : InOrder sent (run.hangUp setup) := by
  obtain ⟨lost, books⟩ := inOrder
  exact ⟨lost, books.hangUp.perm ((Schedule.tasks_wake ..).map _)⟩

section Runs

variable (attempts : 0 < setup.retry.maxAttempts) (backend : setup.consumer.backend = Store.backend)
  (keeps : setup.consumer.keepsLetters = true)

include attempts backend keeps

/-- Every step of any task keeps the books in order, and none sends a message. -/
theorem InOrder.goes (inOrder : InOrder sent run) (goes : Schedule.Goes (system setup) run after) :
    InOrder sent after ∧ after.shared.outstanding ≤ run.shared.outstanding := by
  obtain ⟨lost, books⟩ := inOrder
  cases goes with
  | passed _ shared _ tasks =>
    rw [InOrder, shared]
    exact ⟨⟨lost, books.perm (tasks.map _)⟩, Nat.le_refl _⟩
  | @stepped id job rest among ready _ shared _ tasks =>
    have books := books.perm (among.map _).symm
    have counted : (isCourier job).toNat ≤ run.shared.outstanding := by
      rw [books.outstanding, List.map_cons, List.countP_cons]
      cases isCourier job <;> simp
    have calm := books.calm job List.mem_cons_self
    obtain ⟨gone, moved⟩ := moved_step attempts backend keeps books.orderly calm counted ready
    obtain ⟨books, fewer⟩ := books.moved moved
    rw [InOrder, shared]
    refine ⟨⟨lost + gone, books.perm ((tasks.map _).trans ?_)⟩, fewer⟩
    rw [List.map_append, List.map_append, map_spawned, List.map_map, List.append_assoc, List.append_assoc]
    simpa [Function.comp_def] using List.perm_append_comm.append_left _

theorem InOrder.runUntil {stop : ExchangeRun Store → Bool} {fuel : Nat} (inOrder : InOrder sent run)
    (ran : Schedule.runUntil (system setup) stop fuel run = some after) :
    InOrder sent after ∧ after.shared.outstanding ≤ run.shared.outstanding := by
  refine Schedule.of_runUntil
    (fun s => InOrder sent s ∧ s.shared.outstanding ≤ run.shared.outstanding) (fun s t goes => ?_)
    ⟨inOrder, Nat.le_refl _⟩ ran
  rintro ⟨inOrder, fewer⟩
  obtain ⟨inOrder, still⟩ := inOrder.goes attempts backend keeps goes
  exact ⟨inOrder, Nat.le_trans still fewer⟩

theorem InOrder.sendAll {fuel : Nat} {sequential : Bool} {messages : List Message} (inOrder : InOrder sent run)
    (ran : Replay.sendAll setup fuel sequential messages run = some after) :
    InOrder (sent ++ messages) after := by
  induction messages generalizing sent run with
  | nil =>
    obtain rfl := Option.some.inj ran
    rwa [List.append_nil]
  | cons m messages ih =>
    rw [List.append_cons]
    cases sequential with
    | false => exact ih (inOrder.send m) ran
    | true =>
      have settling : ((run.send m).2.settled setup fuel).bind
          (Replay.sendAll setup fuel true messages) = some after := ran
      obtain ⟨next, settles, rest⟩ := Option.bind_eq_some_iff.1 settling
      exact ih ((inOrder.send m).runUntil attempts backend keeps settles).1 rest

end Runs

end ExchangeRun

namespace Replay

open Exchange ExchangeRun

theorem inOrder_opened (setup : Setup Store) : InOrder [] (opened setup) :=
  ⟨0, (books_start capacity).receive setup.limit⟩

/-- When all messages have reached their ends and the consumer has finished, the books are balanced. -/
theorem balanced_finalRun {setup : Setup Store} (attempts : 0 < setup.retry.maxAttempts)
    (backend : setup.consumer.backend = Store.backend) (keeps : setup.consumer.keepsLetters = true)
    {fuel : Nat} {sequential : Bool} {messages : List Message} {final : ExchangeRun Store}
    (ran : finalRun setup fuel sequential messages = some final) :
    final.shared.beyondClock = false ∧ final.shared.desk.stats.received = messages.length ∧
      final.shared.desk.stats.received = final.shared.desk.stats.finished ∧
      final.shared.desk.stats.escalated + final.shared.desk.stats.deadLettered =
        final.shared.desk.letters.length ∧
      final.shared.desk.stats.noop ≤ messages.countP (·.action.isDeletion) := by
  obtain ⟨sent, sends, ran⟩ := Option.bind_eq_some_iff.1 ran
  obtain ⟨rest, settles, ends⟩ := Option.bind_eq_some_iff.1 ran
  have inOrder := (inOrder_opened setup).sendAll attempts backend keeps sends
  have settled := (inOrder.runUntil attempts backend keeps settles).1
  obtain ⟨⟨lost, books⟩, fewer⟩ := settled.hangUp.runUntil attempts backend keeps ends
  have none : rest.shared.outstanding = 0 := Post.outstanding_of_settled settles
  exact books.balanced (Nat.eq_zero_of_le_zero (none ▸ fewer))

end Replay

namespace ReplayReport

/-- The counters of outcomes that the report tells. -/
def outcomes (r : ReplayReport) : List (String × Nat) :=
  r.stats.counts.filter fun count => count.1 != "noop" && count.1 != "received"

theorem statsJson_eq (r : ReplayReport) :
    r.statsJson = .obj ((("lines", r.lines) :: ("undecodable", r.undecodable) ::
      ("received", r.stats.received) :: r.outcomes).map fun count => (count.1, Json.ofNat count.2)) :=
  rfl

/-- All outcomes are told but one. -/
theorem finished_eq_outcomes (r : ReplayReport) :
    r.stats.finished = (r.outcomes.map (·.2)).sum + r.stats.noop := by
  have told : (r.outcomes.map (·.2)).sum = r.stats.filtered + (r.stats.applied + (r.stats.stale +
      (r.stats.dropped + (r.stats.escalated + (r.stats.deadLettered + (r.stats.transientFailures + 0)))))) :=
    rfl
  rw [told, Stats.finished]
  omega

end ReplayReport

namespace Replay

/-- Every report accounts for every line: it could not be read, or its message was received, and then its
outcome is told, or else was the deletion of an entity never seen; and the messages set aside are those
counted as such. -/
theorem report_accounts {fuel : Nat} {config : Subscriber.Config} {options : ReplayOptions}
    {lines : List MessageLine} {report : ReplayReport} (ran : Replay.run fuel config options lines = some report) :
    report.lines = lines.length ∧ report.lines = report.undecodable + report.stats.received ∧
      report.stats.received = (report.outcomes.map (·.2)).sum + report.stats.noop ∧
      report.stats.noop ≤ (MessageFile.messages lines).countP (·.action.isDeletion) ∧
      report.letters.length = report.stats.escalated + report.stats.deadLettered := by
  obtain ⟨final, finishes, reports⟩ := Option.bind_eq_some_iff.1 ran
  obtain ⟨-, received, finished, setAside, noop⟩ := balanced_finalRun (Nat.zero_lt_succ _) rfl rfl finishes
  have readable : (MessageFile.messages lines).length ≤ lines.length := List.length_filterMap_le ..
  have told := report.finished_eq_outcomes
  obtain rfl := Option.some.inj reports
  dsimp only at told ⊢
  exact ⟨rfl, by omega, by omega, noop, setAside.symm⟩

open Fixtures

/-- A line that cannot be read, an employee whose company never comes, the deletion of a company never
seen, and an employee of that company who was asked for. -/
def mishaps : List MessageLine :=
  [⟨1, .error (.decode "expected value")⟩,
    ⟨2, .ok (employeeCreated "e-1" "Ada" "c-1" (stamp 1))⟩,
    ⟨3, .ok { companyCreated "c-2" "Acme" (stamp 1) with action := .deleted }⟩,
    ⟨4, .ok { employeeCreated "e-2" "Bob" "c-2" (stamp 2) with isForceSync := true }⟩]

theorem report_accounts_mishaps : ∃ report, Replay.run 100 staff {} mishaps = some report ∧
    (report.lines = 4 ∧ report.undecodable = 1 ∧ report.stats.received = 3 ∧
      report.outcomes = [("filtered", 0), ("applied", 0), ("stale", 0), ("dropped", 1), ("escalated", 1),
        ("deadLettered", 0), ("transientFailures", 0)]) ∧
    report.lines = report.undecodable + report.stats.received ∧
      report.stats.received = (report.outcomes.map (·.2)).sum + report.stats.noop ∧
      report.letters.length = report.stats.escalated + report.stats.deadLettered := by
  have told : (Replay.run 100 staff {} mishaps).map
      (fun report => (report.lines, report.undecodable, report.stats.received, report.outcomes)) =
      some (4, 1, 3, [("filtered", 0), ("applied", 0), ("stale", 0), ("dropped", 1), ("escalated", 1),
        ("deadLettered", 0), ("transientFailures", 0)]) := by decide +kernel
  obtain ⟨report, ran, counts⟩ := Option.map_eq_some_iff.1 told
  obtain ⟨-, lines, received, -, letters⟩ := report_accounts ran
  simp only [Prod.mk.injEq] at counts
  exact ⟨report, ran, counts, lines, received, letters⟩

/-- The deletion of a company never seen, and nothing else. -/
def closure : List MessageLine :=
  [⟨1, .ok { companyCreated "c-1" "Acme" (stamp 1) with action := .deleted }⟩]

/-- A deletion of an entity never seen is received, but no counter of the report tells its outcome. -/
theorem received_ne_sum_outcomes_closure :
    (∀ forced, (budget staff {}).budgetFor forced < Instant.clockEnd) ∧
      ∃ report, Replay.run 100 staff {} closure = some report ∧ report.stats.received = 1 ∧
        (report.outcomes.map (·.2)).sum = 0 := by
  have told : (Replay.run 100 staff {} closure).map
      (fun report => (report.stats.received, (report.outcomes.map (·.2)).sum)) = some (1, 0) := by
    decide +kernel
  obtain ⟨report, ran, counts⟩ := Option.map_eq_some_iff.1 told
  exact ⟨by decide, report, ran, Prod.mk.inj counts⟩

end Replay

end Replica

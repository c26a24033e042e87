import Replica.Proofs.Staffing
/-! Few enough failures leave no trace. A failed write costs its message a delivery and nothing else, and as long
as there are fewer failures than a message has attempts, none runs out of them, whichever they hit. -/
namespace Replica

theorem Dispatch.isFailed_of_result? {d : Dispatch} {result : DispatchResult} (given : d.result? = some result) :
    d.isFailed = !result.isOk := by
  simp [isFailed, verdict?_of_result? given]

namespace Exchange

variable {σ : Type} {setup : Setup σ} {store : σ → Store} {s : σ} {f : Nat} {run : ExchangeRun σ}
  {log : List Incident} {crew : Crew σ} {ended : List (Nat × Dispatch)}

theorem Account.results_sublist (id : Nat) (log : List Incident) :
    (Account.of id log).results.Sublist (log.filterMap Incident.result?) := by
  induction log with
  | nil => exact .refl _
  | cons e rest ih =>
    have one : (Account.ofIncident id e).results.Sublist (Incident.result? e).toList := by
      cases e <;> simp only [Account.ofIncident] <;> split <;> simp [Incident.result?]
    have same : (e :: rest).filterMap Incident.result? =
        (Incident.result? e).toList ++ rest.filterMap Incident.result? := by
      cases told : Incident.result? e <;> simp [told]
    rw [same]
    exact one.append ih

/-- When nothing is under way, no worker has a dispatch that it has not reported. -/
theorem Ledger.nobody_works (ledger : Ledger setup run log) (idle : run.shared.outstanding = 0) :
    run.tasks.filterMap dispatch? = [] := by
  refine List.filterMap_eq_nil_iff.2 fun task there => ?_
  obtain ⟨n, job⟩ := task
  cases job with
  | worker w =>
    obtain ⟨id, own⟩ := Option.ne_none_iff_exists'.1 (ledger.attached _ there).2
    by_cases released : w.phase = .releasing
    · simp [dispatch?, released]
    · have among := List.mem_filterMap.2 ⟨_, there, holder?_worker (n := n) own released⟩
      rw [(ledger.ended idle id).1.holders.eq_nil] at among
      cases among
  | _ => rfl

section Idle

variable (staffed : Staffed setup store s f run log crew ended) (nobody : run.tasks.filterMap dispatch? = [])

include staffed

/-- Every report is that of a dispatch of the crew. -/
theorem Staffed.exists_of_report {m : Message} {result : DispatchResult}
    (told : (m, result) ∈ log.filterMap Incident.result?) :
    ∃ id d, crew.dispatches.get? id = some d ∧ d.message = m ∧ d.result? = some result := by
  have reported : (m, some result) ∈ ended.map fun entry => (entry.2.message, entry.2.result?) := by
    rw [staffed.reported]
    exact List.mem_map_of_mem (f := fun report => (report.1, some report.2)) told
  obtain ⟨⟨id, d⟩, there, same⟩ := List.mem_map.1 reported
  obtain ⟨message, given⟩ := Prod.mk.inj same
  refine ⟨id, d, SortedMap.get?_eq_some_iff.2 ?_, message, given⟩
  exact staffed.dispatches.mem_iff.2 (List.mem_append_right _ there)

theorem Staffed.exists_result_of_ended {entry : Nat × Dispatch} (there : entry ∈ ended) :
    ∃ result, entry.2.result? = some result := by
  have reported := List.mem_map_of_mem (f := fun entry => (entry.2.message, entry.2.result?)) there
  rw [staffed.reported] at reported
  obtain ⟨report, -, same⟩ := List.mem_map.1 reported
  exact ⟨_, (Prod.mk.inj same).2.symm⟩

include nobody

/-- As many dispatches failed as reported to have. -/
theorem Staffed.count_isFailed :
    crew.count (·.isFailed) = (log.filterMap Incident.result?).countP (!·.2.isOk) := by
  have reported := congrArg (List.countP fun report => report.2.any (!·.isOk)) staffed.reported
  rw [List.countP_map, List.countP_map] at reported
  rw [Crew.count, SortedMap.values, List.countP_map, staffed.dispatches.countP_eq, nobody, List.nil_append]
  refine (List.countP_congr fun entry there => ?_).trans reported
  obtain ⟨result, given⟩ := staffed.exists_result_of_ended there
  simp [Dispatch.isFailed_of_result? given, given]

/-- The failures counted are the dispatches that failed. -/
theorem Staffed.transientFailures_eq :
    run.shared.desk.stats.transientFailures = crew.count (·.isFailed) := by
  obtain ⟨moves, -, rfl⟩ := staffed.reached
  rw [← staffed.stats]
  refine ((Crew.tallied_run setup.consumer moves s).at_ .transientFailures).trans ?_
  refine List.countP_congr fun d among => ?_
  obtain ⟨id, found⟩ := SortedMap.mem_values_iff.1 among
  have there := staffed.dispatches.mem_iff.1 (SortedMap.get?_eq_some_iff.1 found)
  rw [nobody, List.nil_append] at there
  obtain ⟨result, given⟩ := staffed.exists_result_of_ended there
  rw [Dispatch.isFailed_of_result? given, Dispatch.countsAs, Dispatch.counter?_of_result? given]
  cases result with
  | error error => rfl
  | ok outcome => cases outcome <;> rfl

/-- Fewer failures than attempts leave every message acknowledged, after those that it met. -/
theorem Staffed.acknowledged (on : setup.consumer.OnStore store)
    (taken : ∀ m ∈ messages log, setup.consumer.registry.TakesFreely m)
    (few : crew.count (·.isFailed) < setup.retry.maxAttempts) {id : Nat} {m : Message}
    (fate : Fate setup.retry id m (.of id log)) :
    ∃ failures outcome, failures ≤ crew.count (·.isFailed) ∧ outcome.state = .applied ∧
      Account.of id log = .story id m (failures + 1)
        (List.replicate failures (.error Store.injectedFailure) ++ [.ok outcome]) [] := by
  have sublist := Account.results_sublist id log
  have gives (result : DispatchResult) (told : (m, result) ∈ (Account.of id log).results) :
      result = .error Store.injectedFailure ∨ ∃ outcome, result = .ok outcome ∧ outcome.state = .applied := by
    obtain ⟨n, d, found, -, given⟩ := staffed.exists_of_report (sublist.subset told)
    exact (staffed.steady on taken found).2.2.2 result (Dispatch.verdict?_of_result? given)
  have met : (Account.of id log).results.countP (!·.2.isOk) ≤ crew.count (·.isFailed) := by
    rw [staffed.count_isFailed nobody]
    exact sublist.countP_le
  -- its reports are all errors but a last one, or all the attempts it has: too many errors
  clear sublist
  generalize Account.of id log = account at fate gives met
  cases fate with
  | @acknowledged errors outcome letters limited leaves =>
    have merged : outcome.state = .applied := by
      rcases gives (.ok outcome) (by simp [Account.story]) with failed | ⟨_, same, merged⟩
      · cases failed
      · exact Except.ok.inj same ▸ merged
    have all : ∀ error ∈ errors, error = Store.injectedFailure := by
      intro error among
      rcases gives (.error error) (by simp [Account.story, among]) with failed | ⟨_, same, -⟩
      · exact Except.error.inj failed
      · cases same
    have none_ : letters = [] := by
      cases outcome <;> first | exact leaves | cases merged
    refine ⟨errors.length, outcome, Nat.le_trans ?_ met, merged, ?_⟩
    · simp [Account.story, List.countP_map, Function.comp_def, Except.isOk, Except.toBool]
    · rw [none_, ← List.map_replicate, ← List.eq_replicate_iff.2 ⟨rfl, all⟩]
  | @exhausted errors all =>
    have spent : errors.length ≤ crew.count (·.isFailed) := by
      simpa [Account.story, List.countP_map, Function.comp_def, Except.isOk, Except.toBool] using met
    omega

omit nobody

/-- Where every message was merged, the records are what the messages leave behind. -/
theorem Staffed.reflect (on : setup.consumer.OnStore store)
    (merged : ∀ m ∈ messages log, ∃ outcome : Outcome, outcome.state = .applied ∧
      (m, .ok outcome) ∈ log.filterMap Incident.result?) :
    Records.Reflect setup.consumer.registry (messages log) (store s).records
      (store run.shared.desk.store).records := by
  have exists_of_merged (m : Message) (sent : m ∈ messages log) : ∃ id d, ∃ outcome : Outcome,
      crew.dispatches.get? id = some d ∧ d.message = m ∧ d.result? = some (.ok outcome) ∧
        outcome.state = .applied := by
    obtain ⟨outcome, merged, told⟩ := merged m sent
    obtain ⟨id, d, found, same, given⟩ := staffed.exists_of_report told
    exact ⟨id, d, outcome, found, same, given, merged⟩
  rw [← staffed.held]
  have known := staffed.known
  obtain ⟨moves, keeps, rfl⟩ := staffed.reached
  constructor
  · intro key record found
    rcases Crew.stems_run on keeps s found with old | ⟨m, received, stems⟩
    · exact .inl old
    · obtain ⟨id, d, there, rfl⟩ := Crew.mem_messages_iff.1 received
      exact .inr ⟨_, known _ (SortedMap.get?_eq_some_iff.1 there), stems⟩
  · exact Crew.advances_run on keeps (Crew.opened s)
  · intro m sent
    obtain ⟨id, d, outcome, found, rfl, given, merged⟩ := exists_of_merged m sent
    exact Crew.accounted_run on keeps s found outcome (Dispatch.verdict?_of_result? given) merged

end Idle

/-- When nothing is under way, every message has been acknowledged after at most as many failures as were told,
nothing was set aside, every failure is counted or still to come, and the records are what the messages leave
behind. -/
theorem mended (on : setup.consumer.OnStore store) (keeps : setup.consumer.keepsLetters = true)
    (few : f < setup.retry.maxAttempts) (serves : Serves setup store s f run log)
    (taken : ∀ m ∈ messages log, setup.consumer.registry.TakesFreely m)
    (idle : run.shared.outstanding = 0) :
    (∀ id m, .sent id m ∈ log → ∃ failures outcome, failures ≤ f ∧ outcome.state = .applied ∧
      Account.of id log = .story id m (failures + 1)
        (List.replicate failures (.error Store.injectedFailure) ++ [.ok outcome]) []) ∧
    run.shared.desk.letters = [] ∧
    run.shared.desk.stats.transientFailures + (store run.shared.desk.store).failingWrites = f ∧
    Records.Reflect setup.consumer.registry (messages log) (store s).records
      (store run.shared.desk.store).records := by
  obtain ⟨crew, ended, staffed⟩ := staffed_of_serves on keeps serves taken
  have ledger := ledger_of_unfolds keeps serves.unfolds staffed.withinClock
  have nobody := ledger.nobody_works idle
  have settled := ledger.settled idle
  have total := staffed.failures
  have acknowledged (id : Nat) (m : Message) (sent : .sent id m ∈ log) :=
    staffed.acknowledged nobody on taken (Nat.lt_of_le_of_lt (by omega) few) (settled.fates id m sent)
  refine ⟨fun id m sent => ?_, ?_, ?_, staffed.reflect on fun m sent => ?_⟩
  · obtain ⟨failures, outcome, met, merged, account⟩ := acknowledged id m sent
    exact ⟨failures, outcome, by omega, merged, account⟩
  · rw [settled.letters]
    refine List.filterMap_eq_nil_iff.2 fun e there => ?_
    cases e with
    | shelved owner letter =>
      -- its owner was acknowledged, and that account has no letters
      obtain ⟨id, m, rfl, sent⟩ := settled.owned owner letter there
      obtain ⟨failures, outcome, -, -, account⟩ := acknowledged id m sent
      have left := Account.mem_letters_iff.2 there
      rw [account] at left
      cases left
    | _ => rfl
  · rw [staffed.transientFailures_eq nobody, ← staffed.held]
    exact total
  · obtain ⟨id, sent⟩ := mem_messages_iff.1 sent
    obtain ⟨failures, outcome, -, merged, account⟩ := acknowledged id m sent
    refine ⟨outcome, merged, (Account.results_sublist id log).subset ?_⟩
    simp [account, Account.story]

/-- Let messages be sent to handlers that ask for no other entity, all of the right shape, and such that two with
one stamp for one entity are the same; and let the store be told once to fail some writes, fewer than there are
attempts. Whatever the capacity of the line, the number of dispatches at a time, the writes that the failures
hit and the order of all steps: when nothing is under way any more, every message has been acknowledged, its
earlier deliveries having met failures; nothing was set aside; and the failures counted are those told but for
the ones still to come. Compared with any run of the same messages in which no write fails, every entity has a
record in both or in neither, with the same stamp and the same deletion mark, and the same record altogether
unless its newest message is a deletion. -/
theorem failures_mended (on : setup.consumer.OnStore store) (keeps : setup.consumer.keepsLetters = true)
    (few : f < setup.retry.maxAttempts) (serves : Serves setup store s f run log)
    (taken : ∀ m ∈ messages log, setup.consumer.registry.TakesFreely m)
    (copies : ∀ a ∈ messages log, ∀ b ∈ messages log, a.key = b.key → a.emittedAt = b.emittedAt → a = b)
    (idle : run.shared.outstanding = 0) :
    (∀ id m, .sent id m ∈ log → ∃ failures outcome, failures ≤ f ∧ outcome.state = .applied ∧
      Account.of id log = .story id m (failures + 1)
        (List.replicate failures (.error Store.injectedFailure) ++ [.ok outcome]) []) ∧
    run.shared.desk.letters = [] ∧
    run.shared.desk.stats.transientFailures + (store run.shared.desk.store).failingWrites = f ∧
    ∀ {plain : Setup σ} {t : σ} {calm : ExchangeRun σ} {quiet : List Incident},
      plain.consumer.OnStore store → plain.consumer.keepsLetters = true →
      plain.consumer.registry = setup.consumer.registry → 0 < plain.retry.maxAttempts →
      Serves plain store t 0 calm quiet → (store t).records = (store s).records →
      (∀ m, m ∈ messages quiet ↔ m ∈ messages log) → calm.shared.outstanding = 0 →
      ∀ key,
        let records := (store run.shared.desk.store).records
        let others := (store calm.shared.desk.store).records
        (SortedMap.get? records key).map (·.lastSyncedAt) = (SortedMap.get? others key).map (·.lastSyncedAt) ∧
        (SortedMap.get? records key).map (·.isDeleted) = (SortedMap.get? others key).map (·.isDeleted) ∧
        (SortedMap.get? records key = SortedMap.get? others key ∨
          ∃ newest, Records.IsNewest (messages log) newest ∧ newest.key = key ∧
            newest.action.isDeletion = true) := by
  obtain ⟨acknowledged, letters, counted, reflect⟩ := mended on keeps few serves taken idle
  refine ⟨acknowledged, letters, counted, ?_⟩
  intro plain t calm quiet onPlain keepsPlain registry some_ servesPlain first same idlePlain key
  have takenPlain (m : Message) (sent : m ∈ messages quiet) : plain.consumer.registry.TakesFreely m :=
    registry ▸ taken m ((same m).1 sent)
  have others := (mended onPlain keepsPlain some_ servesPlain takenPlain idlePlain).2.2.2
  rw [registry, first] at others
  exact reflect.get?_agree (others.congr same) copies key

section Samples

open Fixtures

/-- The company has moved. -/
def acmeMoved : Message :=
  acmeUpdated (SortedMap.ofPairs [("name", .str "Acme"), ("city", .str "Brno")]) (stamp 2)

/-- Two messages are sent, the newer one first. -/
def sendBoth (run : ExchangeRun Store) : ExchangeRun Store :=
  (ExchangeRun.send acme (ExchangeRun.send acmeMoved run).2).2

/-- They are sent while the next write fails. -/
def bumpy : ExchangeRun Store :=
  sendBoth (((ExchangeRun.start ({} : Store) (.ofCapacity 1)).receive office).changeStore office
    (·.failNextWrites 1))

/-- One dispatch at a time. -/
def counter : Setup Store := { consumer := { service with maxConcurrency := 1 } }

/-- They are sent while no write fails, on a longer line. -/
def smooth : ExchangeRun Store := sendBoth ((ExchangeRun.start ({} : Store) (.ofCapacity 4)).receive counter)

theorem serves_bumpy : Serves office id {} 1 bumpy ([.sent 1 acmeMoved] ++ [.sent 2 acme]) := by
  have told : Serves office id {} 1
      (((ExchangeRun.start ({} : Store) (.ofCapacity 1)).receive office).changeStore office
        (·.failNextWrites 1)) [] :=
    .told (.receive (.start 1)) fun _ => rfl
  exact (told.sent (m := acmeMoved) rfl).sent (m := acme) rfl

theorem serves_smooth : Serves counter id {} 0 smooth ([.sent 1 acmeMoved] ++ [.sent 2 acme]) := by
  have opened : Serves counter id {} 0 ((ExchangeRun.start ({} : Store) (.ofCapacity 4)).receive counter) [] :=
    .receive (.start 4)
  exact (opened.sent (m := acmeMoved) rfl).sent (m := acme) rfl

theorem failures_mended_bumpy :
    (service.OnStore id ∧ service.keepsLetters = true ∧ 1 < hasty.maxAttempts) ∧
    ∃ after log calm quiet, bumpy.settled office 200 = some after ∧ smooth.settled counter 200 = some calm ∧
      Serves office id {} 1 after log ∧ Serves counter id {} 0 calm quiet ∧
      messages log = [acmeMoved, acme] ∧ messages quiet = [acmeMoved, acme] ∧
      after.shared.desk.letters = [] ∧ after.shared.desk.stats.transientFailures = 1 ∧
      SortedMap.get? after.shared.desk.store.records acme.key =
        SortedMap.get? calm.shared.desk.store.records acme.key := by
  have ends : (bumpy.settled office 200).map (fun after => after.shared.desk.store.failingWrites) = some 0 ∧
      (smooth.settled counter 200).isSome = true := by
    decide +kernel
  obtain ⟨after, settled, spent⟩ := Option.map_eq_some_iff.1 ends.1
  obtain ⟨calm, quieted⟩ := Option.isSome_iff_exists.1 ends.2
  obtain ⟨log, serves, sent⟩ := serves_bumpy.runUntil settled
  obtain ⟨quiet, servesCalm, same⟩ := serves_smooth.runUntil quieted
  replace sent : messages log = [acmeMoved, acme] := sent
  replace same : messages quiet = [acmeMoved, acme] := same
  have taken : ∀ m ∈ [acmeMoved, acme], service.registry.TakesFreely m := by
    simp only [List.forall_mem_cons]
    exact ⟨⟨companies, rfl, rfl, rfl⟩, ⟨companies, rfl, rfl, rfl⟩, by simp⟩
  have copies : ∀ a ∈ [acmeMoved, acme], ∀ b ∈ [acmeMoved, acme],
      a.key = b.key → a.emittedAt = b.emittedAt → a = b := by
    decide
  have on : counter.consumer.OnStore id := Consumer.onStore_of_backend rfl
  obtain ⟨-, letters, counted, agree⟩ := failures_mended service_onStore rfl (f := 1) (by decide) serves
    (by rwa [sent]) (by rwa [sent]) (Post.outstanding_of_settled settled)
  obtain ⟨-, -, equal⟩ := agree on rfl rfl (by decide) servesCalm rfl (fun m => by rw [same, sent])
    (Post.outstanding_of_settled quieted) acme.key
  refine ⟨⟨service_onStore, rfl, by decide⟩, after, log, calm, quiet, settled, quieted, serves, servesCalm,
    sent, same, letters, ?_, ?_⟩
  · simpa [spent] using counted
  · rcases equal with equal | ⟨newest, among, -, deletion⟩
    · exact equal
    · -- neither of the two deletes the company
      rw [sent] at among
      rcases List.mem_pair.1 among.1 with rfl | rfl <;> cases deletion

end Samples

end Exchange

end Replica

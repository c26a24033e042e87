import Replica.Proofs.Course
import Replica.Proofs.Sample
/-! Nothing acknowledged is lost. Records are never removed, they are replaced by newer ones only, and
only a dispatch replaces them, each the record of its own message's entity. A dispatch that reports its
message merged, outdated or without effect leaves a record as new as the message, for good. -/
namespace Replica

/-- A message is merged for good if the records changed, or needed no change. -/
theorem Outcome.state_eq_applied_iff {outcome : Outcome} :
    outcome.state = .applied ↔
      (∃ change, outcome = .applied change) ∨ outcome = .stale ∨ outcome = .noop := by
  cases outcome <;> simp [state]

/-- Only a dispatch that ended without trouble reports that its message was merged. -/
theorem Ending.eq_plain_of_result {m : Message} {ending : Ending} {outcome : Outcome}
    (given : ending.result m = .ok outcome) (merged : outcome.state = .applied) :
    ending = .plain outcome := by
  cases ending with
  | plain reported =>
    obtain rfl : reported = outcome := Except.ok.inj given
    rfl
  | timedOut missing waited =>
    cases forced : m.isForceSync <;> simp [result, forced] at given <;> subst given <;>
      simp [Outcome.state] at merged
  | failed error =>
    cases retryable : error.isRetryable <;> simp [result, retryable] at given
    subst given
    simp [Outcome.state] at merged

namespace Dispatch

variable {σ : Type} {c : Consumer σ} {store : σ → Store}

/-- If the dispatch gives that its message was merged, the records cover the message. -/
def Accounted (records : Records) (d : Dispatch) : Prop :=
  ∀ outcome, d.verdict? = some (.ok outcome) → outcome.state = .applied →
    records.Covers d.message

/-- A dispatch that is about to end gives that its message was merged only if it ends without
trouble. -/
theorem accounted_of_closing {records : Records} {d : Dispatch} {ending : Ending}
    (phase : d.phase = .closing ending)
    (covers : ∀ outcome, ending = .plain outcome → outcome.state = .applied →
      records.Covers d.message) : Accounted records d := by
  intro outcome given merged
  simp only [verdict?, phase, Option.some.injEq] at given
  exact covers outcome (Ending.eq_plain_of_result given merged) merged

theorem accounted_of_undecided {records : Records} {d : Dispatch} (open_ : d.verdict? = none) :
    Accounted records d := by
  intro outcome given
  simp [open_] at given

theorem accounted_of_receive {records : Records} {registry : Registry} {budget : WaitBudget}
    {now : Instant} {m : Message} {d : Dispatch} (phase : d.phase = receive registry budget now m) :
    Accounted records d := by
  rcases receive_cases registry budget now m with ⟨ends, -⟩ |
    ⟨schema, -, ⟨reasons, ends⟩ | goes | ⟨-, goes | ⟨w, goes, -⟩⟩⟩
  · refine accounted_of_closing (phase.trans ends) fun outcome equal merged => ?_
    obtain rfl := Ending.plain.inj equal
    simp [Outcome.state] at merged
  · exact accounted_of_closing (phase.trans ends) (by simp)
  · exact accounted_of_undecided (by simp [verdict?, phase, goes])
  · exact accounted_of_undecided (by simp [verdict?, phase, goes])
  · exact accounted_of_undecided (by simp [verdict?, phase, goes])

theorem accounted_of_onProbe {records : Records} {backoff : Backoff} {now : Instant}
    {w : DependencyWait} {answer : Except SyncError Bool} {d : Dispatch}
    (phase : d.phase = onProbe backoff now w answer) : Accounted records d := by
  rcases onProbe_cases backoff now w answer with ⟨error, ends⟩ | goes | ⟨next, goes, -⟩ |
    ⟨missing, waited, ends⟩ | ⟨until_, next, goes, -⟩
  · exact accounted_of_closing (phase.trans ends) (by simp)
  · exact accounted_of_undecided (by simp [verdict?, phase, goes])
  · exact accounted_of_undecided (by simp [verdict?, phase, goes])
  · exact accounted_of_closing (phase.trans ends) (by simp)
  · exact accounted_of_undecided (by simp [verdict?, phase, goes])

/-- If the message turns out to be outdated as the record is loaded, that record covers it. -/
theorem accounted_of_onLoad {records : Records} {schema : Schema} {d : Dispatch}
    (phase : d.phase =
      onLoad schema d.message (.ok (SortedMap.get? records d.message.key))) :
    Accounted records d := by
  rcases onLoad_cases schema d.message (SortedMap.get? records d.message.key) with
    ⟨record, outcome, goes, -⟩ | ⟨ends, record, there, asNew⟩ | ⟨reasons, ends, -⟩
  · exact accounted_of_undecided (by simp [verdict?, phase, goes])
  · exact accounted_of_closing (phase.trans ends) fun _ _ _ => ⟨record, there, asNew⟩
  · exact accounted_of_closing (phase.trans ends) (by simp)

theorem accounted_of_onWrite {records : Records} {outcome : Outcome}
    {answer : Except SyncError Upsert} {d : Dispatch} (phase : d.phase = onWrite outcome answer)
    (covers : ∀ upsert, answer = .ok upsert → records.Covers d.message) : Accounted records d := by
  rcases onWrite_cases outcome answer with ⟨error, -, ends⟩ | ⟨upsert, done, -, ends⟩ |
    ⟨upsert, done, -, ends⟩
  · exact accounted_of_closing (phase.trans ends) (by simp)
  · exact accounted_of_closing (phase.trans ends) fun _ _ _ => covers upsert done
  · exact accounted_of_closing (phase.trans ends) fun _ _ _ => covers upsert done

/-- What a dispatch writes is a record of its message, so the write, whatever comes of it, leaves the
message covered unless it fails. -/
theorem accounted_step (on : c.OnStore store) (now : Instant) (desk : Desk σ) {d : Dispatch}
    (fits : d.phase.Fits c.registry d.message)
    (accounted : Accounted (store desk.store).records d) :
    Accounted (store (d.step c now desk).1.store).records (d.step c now desk).2 := by
  have made := d.phase_step on now desk
  have kept := d.store_step on now desk
  have same := d.message_step (c := c) now desk
  cases phase : d.phase with
  | arrived =>
    simp only [phase] at made
    exact accounted_of_receive made
  | probing w =>
    simp only [phase] at made
    exact accounted_of_onProbe made
  | pausing until_ w => exact accounted_of_undecided (by simp [verdict?, made, phase])
  | loading schema =>
    simp only [phase] at made kept
    rw [← same] at made
    rw [kept]
    exact accounted_of_onLoad made
  | writing record outcome =>
    simp only [phase] at made kept
    rw [phase] at fits
    obtain ⟨schema, current, -, merges⟩ := fits
    refine accounted_of_onWrite made fun upsert answered => ?_
    rcases (store desk.store).upsertIfNewer_cases record with ⟨failed, -⟩ | ⟨-, written⟩
    · rw [failed] at answered
      cases answered
    · -- written or too late, the record of the entity is now as new as the message
      rw [kept, written, same]
      exact Records.covers_upsert _ _ merges.key_eq merges.lastSyncedAt_eq
  | beyondClock => exact accounted_of_undecided (by simp [verdict?, made, phase])
  | _ =>
    -- the result is decided already, and the store is left alone
    have settled : d.verdict?.isSome = true := by simp [verdict?, phase]
    obtain ⟨result, decided⟩ := Option.isSome_iff_exists.1 settled
    obtain ⟨still, alone⟩ := step_of_verdict? decided c now desk
    intro outcome given merged
    rw [alone, same]
    exact accounted outcome (decided.trans (still.symm.trans given)) merged

/-- In every run, what dispatches report to be merged is covered by the records. -/
theorem kept_accounted (on : c.OnStore store) :
    Crew.Kept c (fun _ => True) fun s d =>
      d.phase.Fits c.registry d.message ∧ Accounted (store s).records d where
  sound_step _ _ _ _ _ := trivial
  arrives _ _ _ := ⟨trivial, accounted_of_undecided rfl⟩
  own now desk d _ holds :=
    ⟨(kept_fits c).own now desk d trivial holds.1, accounted_step on now desk holds.1 holds.2⟩
  other now desk _ e _ holds _ :=
    ⟨holds.1, fun outcome given merged =>
      (holds.2 outcome given merged).advance (e.advances_step on now desk)⟩

/-- A step that changes the record of an entity is a write of a newer one, and the dispatch goes on to
report what it had in mind. -/
theorem write_of_changed (on : c.OnStore store) {now : Instant} {desk : Desk σ} {d : Dispatch}
    {key : EntityKey}
    (changed : SortedMap.get? (store (d.step c now desk).1.store).records key ≠
      SortedMap.get? (store desk.store).records key) :
    ∃ record outcome, d.phase = .writing record outcome ∧ record.key = key ∧
      (store desk.store).records.IsNewer record ∧
      SortedMap.get? (store (d.step c now desk).1.store).records key = some record ∧
      (d.step c now desk).2.phase = .closing (.plain outcome) := by
  have made := d.phase_step on now desk
  rw [store_step on] at changed ⊢
  cases phase : d.phase with
  | writing record outcome =>
    simp only [phase] at changed made ⊢
    rcases (store desk.store).upsertIfNewer_cases record with ⟨-, same⟩ | ⟨done, written⟩
    · exact absurd (congrArg (SortedMap.get? · key) same) changed
    · rw [written] at changed ⊢
      have own : record.key = key := by
        by_cases own : record.key = key
        · exact own
        · exact absurd (Records.get?_upsert_of_ne _ _ (Ne.symm own)) changed
      -- a write that came too late would have changed nothing
      rcases Records.upsert_cases (store desk.store).records record with
        ⟨newer, isWritten, inserted⟩ | ⟨current, -, -, late⟩
      · refine ⟨record, outcome, rfl, own, newer, ?_, ?_⟩
        · rw [inserted, own, SortedMap.get?_insert_self]
        · rw [done] at made
          rcases onWrite_cases outcome (.ok ((store desk.store).records.upsert record).1) with
            ⟨error, failed, -⟩ | ⟨upsert, equal, tooLate, -⟩ | ⟨upsert, -, -, ends⟩
          · cases failed
          · obtain rfl := Except.ok.inj equal
            simp [isWritten] at tooLate
          · exact made.trans ends
      · exact absurd (congrArg (SortedMap.get? ·.2 key) late) changed
  | _ => simp [phase] at changed

end Dispatch

namespace Crew

variable {σ : Type} {c : Consumer σ} {store : σ → Store} {moves : List (Move σ)}

/-- Dispatches of a run that began before any message are accounted for. -/
theorem accounted_run (on : c.OnStore store) (keeps : ∀ move ∈ moves, KeepsRecords store move)
    (s : σ) {id : Nat} {d : Dispatch}
    (found : (run c moves (opened s)).dispatches.get? id = some d) :
    d.Accounted ((run c moves (opened s)).records store) := by
  refine (((Dispatch.kept_accounted on).run ?_ keeps trivial).2 id d found).2
  exact fun s t same _ => ⟨trivial, fun d holds => ⟨holds.1, (same : (store t).records = _) ▸ holds.2⟩⟩

/-- A move changes the record of an entity only if it is the write of a dispatch of a message of that
entity: a merge of the message, newer than what was there, of which the dispatch then reports. -/
theorem merge_of_changed (on : c.OnStore store) (s : σ) {move : Move σ}
    (keeps : KeepsRecords store move) {key : EntityKey}
    (changed : SortedMap.get? ((next c (run c moves (opened s)) move).records store) key ≠
      SortedMap.get? ((run c moves (opened s)).records store) key) :
    ∃ id d record outcome, move = .step id ∧
      (run c moves (opened s)).dispatches.get? id = some d ∧ d.message.key = key ∧
      d.phase = .writing record outcome ∧
      ((run c moves (opened s)).records store).IsNewer record ∧
      SortedMap.get? ((next c (run c moves (opened s)) move).records store) key = some record ∧
      (next c (run c moves (opened s)) move).dispatches.get? id =
        some { d with phase := .closing (.plain outcome) } := by
  generalize reached : run c moves (opened s) = crew at changed ⊢
  rcases next_cases c crew move with same | ⟨id, m, rfl, -, made⟩ | ⟨id, d, rfl, there, -, made⟩ |
    ⟨time, rfl, made⟩ | ⟨f, rfl, made⟩
  · rw [same] at changed
    exact absurd rfl changed
  · rw [made] at changed
    exact absurd rfl changed
  · rw [made] at changed ⊢
    obtain ⟨record, outcome, phase, own, newer, after, reports⟩ := d.write_of_changed on changed
    have fits := fits_run (reached ▸ there)
    rw [phase] at fits
    obtain ⟨schema, current, -, merges⟩ := fits
    refine ⟨id, d, record, outcome, rfl, there, merges.key_eq ▸ own, phase, newer, after, ?_⟩
    rw [SortedMap.get?_insert_self, d.step_eq_of_phase reports]
  · rw [made] at changed
    exact absurd rfl changed
  · rw [made] at changed
    exact absurd (congrArg (SortedMap.get? · key) (keeps crew.desk.store)) changed

/-- In every run of a consumer on a store that nobody else writes to, a move removes no record,
replaces a record only by a strictly newer one and only while it dispatches a message of that entity;
and once a dispatch has reported its message merged, outdated or without effect, the entity has a
record as new as the message after all later moves. -/
theorem acknowledged_retained (on : c.OnStore store) (s : σ)
    (keeps : ∀ move ∈ moves, KeepsRecords store move) :
    (∀ move, KeepsRecords store move → ∀ key,
      (∀ record, SortedMap.get? ((run c moves (opened s)).records store) key = some record →
        ∃ later, SortedMap.get? ((run c (moves ++ [move]) (opened s)).records store) key =
            some later ∧
          (later = record ∨ record.lastSyncedAt < later.lastSyncedAt)) ∧
      (SortedMap.get? ((run c (moves ++ [move]) (opened s)).records store) key ≠
          SortedMap.get? ((run c moves (opened s)).records store) key →
        ∃ id d, move = .step id ∧ (run c moves (opened s)).dispatches.get? id = some d ∧
          d.message.key = key)) ∧
    (∀ id d outcome, (run c moves (opened s)).dispatches.get? id = some d →
      d.result? = some (.ok outcome) →
      ((∃ change, outcome = .applied change) ∨ outcome = .stale ∨ outcome = .noop) →
      ∀ later, (∀ move ∈ later, KeepsRecords store move) →
        ∃ record, SortedMap.get? ((run c (moves ++ later) (opened s)).records store)
            d.message.key = some record ∧
          d.message.emittedAt ≤ record.lastSyncedAt) := by
  constructor
  · intro move keepsLast key
    rw [run_append, run_cons, run_nil]
    refine ⟨advances_next on _ keepsLast key, fun changed => ?_⟩
    obtain ⟨id, d, -, -, same, there, own, -⟩ := merge_of_changed on s keepsLast changed
    exact ⟨id, d, same, there, own⟩
  · intro id d outcome found given merged later keepsLater
    have covers := accounted_run on keeps s found outcome
      (Dispatch.verdict?_of_result? given) (Outcome.state_eq_applied_iff.2 merged)
    rw [run_append]
    exact covers.advance (advances_run on keepsLater _)

section Samples

open Fixtures

/-- A first write that is told to fail, and an update overtaken by a newer one that was merged while
its own merge was under way. -/
def overtaken : List (Move Store) :=
  [.poke (·.failNextWrites 1), .receive 0 (companyCreated "c-1" "Acme" (stamp 1))] ++ steps 0 4 ++
    [.receive 1 (acmeUpdated (SortedMap.ofPairs [("name", .str "Acme Ltd")]) (stamp 2)),
      .receive 2 (acmeUpdated (SortedMap.ofPairs [("name", .str "Acme Inc")]) (stamp 3))] ++
    steps 1 2 ++ steps 2 4 ++ steps 1 2

theorem acknowledged_retained_overtaken :
    (service.OnStore id ∧ (∀ move ∈ overtaken, KeepsRecords id move) ∧
      ∀ move ∈ steps 0 1, KeepsRecords id move) ∧
    ∃ record, SortedMap.get? ((run service (overtaken ++ steps 0 1) (opened {})).records id) acme =
        some record ∧ stamp 2 ≤ record.lastSyncedAt := by
  have keeps : ∀ move ∈ overtaken, KeepsRecords id move := by
    simp [overtaken, steps, Move.Within, Store.failNextWrites]
  have keepsLater : ∀ move ∈ steps 0 1, KeepsRecords id move := by simp [steps, Move.Within]
  exact ⟨⟨service_onStore, keeps, keepsLater⟩,
    (acknowledged_retained service_onStore {} keeps).2 1
      ⟨acmeUpdated (SortedMap.ofPairs [("name", .str "Acme Ltd")]) (stamp 2), .done (.ok .stale)⟩
      .stale rfl rfl (.inr (.inl rfl)) (steps 0 1) keepsLater⟩

end Samples

end Crew

end Replica

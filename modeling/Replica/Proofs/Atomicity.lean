import Replica.Proofs.Retention
/-! Merges in two steps. A dispatch merges its message into the record that it loaded, and by the time
it writes another may be there. The conditional write compares stamps only, so what is written and
reported is what a merge into the record replaced would give just if the two records do not differ in
what the merge takes from them. A message that is not a deletion always leaves the right record, but
not always with the right change; a deletion may lose fields. -/
namespace Replica

namespace Resolution

/-- What a merge of the message takes from a record is the same of the record seen and of the one
replaced: whether there is one, its deletion mark, and, for a deletion, the fields that the message
leaves uncovered. -/
def Undisturbed (m : Message) (schema : Schema) : Option Record → Option Record → Prop
  | none, none => True
  | some seen, some replaced =>
    seen.isDeleted = replaced.isDeleted ∧
      (m.action.isDeletion = true → ∀ name, (schema.project m.snapshot).get? name = none →
        seen.fields.get? name = replaced.fields.get? name)
  | _, _ => False

/-- The change that is reported tells whether the record was deleted. -/
theorem changeOf_eq_changeOf_iff {a b isDeleted : Bool} :
    changeOf a isDeleted = changeOf b isDeleted ↔ a = b := by
  cases a <;> cases b <;> cases isDeleted <;> decide

/-- The change that is reported tells whether there was a record. -/
theorem changeOf_ne_inserted (wasDeleted isDeleted : Bool) :
    changeOf wasDeleted isDeleted ≠ .inserted := by
  cases wasDeleted <;> cases isDeleted <;> decide

variable {m : Message} {schema : Schema} {record : Record} {outcome : Outcome}

theorem recordOf_eq_recordOf_iff {a b : Snapshot} :
    recordOf m schema a = recordOf m schema b ↔ a = b := by
  simp [recordOf]

theorem fieldsOver_eq_fieldsOver_iff {a b : Snapshot} :
    fieldsOver m schema a = fieldsOver m schema b ↔
      (m.action.isDeletion = true → ∀ name, (schema.project m.snapshot).get? name = none →
        a.get? name = b.get? name) := by
  cases deletion : m.action.isDeletion with
  | true => simp [fieldsOver, deletion, Snapshot.overlay_eq_overlay_iff]
  | false => simp [fieldsOver, deletion]

/-- A merge into no record is not what a merge into a record gives. -/
theorem Merges.not_some_of_none (merges : Merges m none schema record outcome) (old : Record) :
    ¬ Merges m (some old) schema record outcome := by
  intro again
  obtain ⟨-, -, -, rfl⟩ := merges_some_iff.1 again
  obtain ⟨-, -, reported⟩ | ⟨-, -, -, reported⟩ := merges_none_iff.1 merges
  · cases reported
  · exact changeOf_ne_inserted _ _ (Outcome.applied.inj reported)

/-- A first record, or a deletion of an entity never seen, is reported just if no record was merged
into. -/
theorem Merges.reports_none_iff {seen : Option Record}
    (merges : Merges m seen schema record outcome) :
    outcome = .applied .inserted ∨ outcome = .noop ↔ seen = none := by
  cases seen with
  | none =>
    obtain ⟨-, -, rfl⟩ | ⟨-, -, -, rfl⟩ := merges_none_iff.1 merges
    · simp
    · simp
  | some read =>
    obtain ⟨-, -, -, rfl⟩ := merges_some_iff.1 merges
    simp [changeOf_ne_inserted]

/-- What was merged into one record is what a merge into another, older record gives just if nothing
that the merge takes from them differs. -/
theorem Merges.iff_undisturbed {seen replaced : Option Record}
    (merges : Merges m seen schema record outcome)
    (older : ∀ old, replaced = some old → old.lastSyncedAt < m.emittedAt) :
    Merges m replaced schema record outcome ↔ Undisturbed m schema seen replaced := by
  cases seen with
  | none =>
    cases replaced with
    | none => exact ⟨fun _ => trivial, fun _ => merges⟩
    | some old => exact ⟨fun again => merges.not_some_of_none old again, False.elim⟩
  | some read =>
    cases replaced with
    | none => exact ⟨fun fresh => fresh.not_some_of_none read merges, False.elim⟩
    | some old =>
      obtain ⟨-, fits, rfl, rfl⟩ := merges_some_iff.1 merges
      rw [merges_some_iff, recordOf_eq_recordOf_iff, fieldsOver_eq_fieldsOver_iff,
        Outcome.applied.injEq, changeOf_eq_changeOf_iff]
      constructor
      · rintro ⟨-, -, fields, mark⟩
        exact ⟨mark, fields⟩
      · rintro ⟨mark, fields⟩
        exact ⟨older old rfl, fits, fields, mark⟩

/-- A message that is not a deletion leaves the right record whatever it replaces. -/
theorem Merges.exists_outcome {seen replaced : Option Record}
    (merges : Merges m seen schema record outcome) (lives : m.action.isDeletion = false)
    (older : ∀ old, replaced = some old → old.lastSyncedAt < m.emittedAt) :
    ∃ right, Merges m replaced schema record right := by
  obtain ⟨fields, rfl, whole⟩ := merges.eq_recordOf
  cases replaced with
  | none =>
    exact ⟨_, merges_none_iff.2 (.inr ⟨lives, merges.check_eq_valid lives, by rw [whole lives], rfl⟩)⟩
  | some old =>
    have fits : schema.check m.snapshot (!m.action.isDeletion) = .valid := by
      simpa [lives] using merges.check_eq_valid lives
    exact ⟨_, merges_some_iff.2 ⟨older old rfl, fits, by simp [fieldsOver, lives, whole], rfl⟩⟩

end Resolution

namespace Crew

variable {σ : Type} {c : Consumer σ} {store : σ → Store} {moves : List (Move σ)}

/-- In the course of the moves, the dispatch of this message loaded the record that it is about to merge
by the schema of its handler, and this is what was there. -/
def Loaded (c : Consumer σ) (store : σ → Store) (s : σ) (moves : List (Move σ)) (id : Nat)
    (m : Message) (schema : Schema) (seen : Option Record) : Prop :=
  ∃ before rest, moves = before ++ .step id :: rest ∧
    (run c before (opened s)).dispatches.get? id = some ⟨m, .loading schema⟩ ∧
    SortedMap.get? ((run c before (opened s)).records store) m.key = seen

theorem Loaded.append {s : σ} {id : Nat} {m : Message} {schema : Schema} {seen : Option Record}
    (loaded : Loaded c store s moves id m schema seen) (move : Move σ) :
    Loaded c store s (moves ++ [move]) id m schema seen := by
  obtain ⟨before, rest, rfl, there, found⟩ := loaded
  exact ⟨before, rest ++ [move], by simp, there, found⟩

/-- A dispatch that is about to write has merged its message into the record that it loaded. -/
theorem loaded_of_writing (on : c.OnStore store) (s : σ) {id : Nat} {d : Dispatch} {record : Record}
    {outcome : Outcome} (found : (run c moves (opened s)).dispatches.get? id = some d)
    (writes : d.phase = .writing record outcome) :
    ∃ schema seen, Loaded c store s moves id d.message schema seen ∧
      Resolution.Merges d.message seen schema record outcome := by
  induction moves using List.reverseRec with
  | nil => cases found
  | append_singleton moves move ih =>
    rw [run_append, run_cons, run_nil] at found
    rcases get?_next_cases found with still | ⟨m, rfl, -, rfl⟩ | ⟨before, rfl, there, -, rfl⟩
    · obtain ⟨schema, seen, loaded, merges⟩ := ih still
      exact ⟨schema, seen, loaded.append move, merges⟩
    · cases writes
    · obtain ⟨schema, phase, merges⟩ := Dispatch.merges_of_writing_step on writes
      rw [Dispatch.message_step]
      refine ⟨schema, _, ⟨moves, [], rfl, ?_, rfl⟩, merges⟩
      rw [there, ← phase]

/-- Every write of a run, seen from outside: it replaces the record of its message's entity, or none, by
what a merge into the record loaded before gave, and the dispatch reports the outcome of that merge. A
merge into the record replaced would have given just that if and only if the two records do not differ
in what the merge takes from them; and unless the message is a deletion, it would at least have given
the same record. A first record, or a deletion of an entity never seen, is reported just if none was
loaded, and a deletion keeps the fields of the record loaded. -/
theorem merges_replaced_iff (on : c.OnStore store) (s : σ) {move : Move σ}
    (keeps : KeepsRecords store move) {key : EntityKey}
    (changed : SortedMap.get? ((run c (moves ++ [move]) (opened s)).records store) key ≠
      SortedMap.get? ((run c moves (opened s)).records store) key) :
    ∃ id m schema seen record outcome,
      move = .step id ∧ m.key = key ∧ c.registry.schemaFor? m = some schema ∧
      Loaded c store s moves id m schema seen ∧
      Resolution.Merges m seen schema record outcome ∧
      SortedMap.get? ((run c (moves ++ [move]) (opened s)).records store) key = some record ∧
      (∀ later d result,
        (run c (moves ++ move :: later) (opened s)).dispatches.get? id = some d →
        d.result? = some result → result = .ok outcome) ∧
      (Resolution.Merges m (SortedMap.get? ((run c moves (opened s)).records store) key) schema record
          outcome ↔
        Resolution.Undisturbed m schema seen
          (SortedMap.get? ((run c moves (opened s)).records store) key)) ∧
      (m.action.isDeletion = false → ∃ right,
        Resolution.Merges m (SortedMap.get? ((run c moves (opened s)).records store) key) schema
          record right) ∧
      (outcome = .applied .inserted ∨ outcome = .noop ↔ seen = none) ∧
      (m.action.isDeletion = true → ∀ name, (schema.project m.snapshot).get? name = none →
        record.fields.get? name = seen.bind (·.fields.get? name)) := by
  rw [run_append, run_cons, run_nil] at changed ⊢
  obtain ⟨id, d, record, outcome, rfl, there, rfl, writes, newer, after, reports⟩ :=
    merge_of_changed on s keeps changed
  obtain ⟨schema, seen, loaded, merges⟩ := loaded_of_writing on s there writes
  have known : c.registry.schemaFor? d.message = some schema := by
    obtain ⟨before, rest, -, loading, -⟩ := loaded
    exact fits_run loading
  have older (old : Record)
      (found : SortedMap.get? ((run c moves (opened s)).records store) d.message.key = some old) :
      old.lastSyncedAt < d.message.emittedAt := by
    rw [← merges.key_eq] at found
    exact merges.lastSyncedAt_eq ▸ newer old found
  refine ⟨id, d.message, schema, seen, record, outcome, rfl, rfl, known, loaded, merges, after, ?_,
    merges.iff_undisturbed older, fun lives => merges.exists_outcome lives older,
    merges.reports_none_iff, fun deletion _ => merges.get?_fields deletion⟩
  intro later e result found ended
  rw [run_append, run_cons] at found
  exact result_of_verdict? reports rfl later found ended

section Samples

open Fixtures

/-- A company's creation, a change and a deletion all load before any of them writes. The first two have
written and reported, and the deletion is about to write. -/
def lateWrites : List (Move Store) :=
  [ .receive 0 (companyCreated "c-1" "Acme" (stamp 1)),
    .receive 1 (acmeUpdated (SortedMap.ofPairs [("name", .str "Acme Ltd")]) (stamp 2)),
    .receive 2 (acmeDeleted ∅ (stamp 3)) ] ++
    steps 0 2 ++ steps 1 2 ++ steps 2 2 ++ steps 0 2 ++ steps 1 2

theorem merges_replaced_iff_lateWrites :
    (service.OnStore id ∧ KeepsRecords id (.step 2) ∧
      SortedMap.get? ((run service (lateWrites ++ [.step 2]) (opened {})).records id) acme ≠
        SortedMap.get? ((run service lateWrites (opened {})).records id) acme) ∧
    ∃ m schema seen record outcome, m.key = acme ∧ Loaded service id {} lateWrites 2 m schema seen ∧
      SortedMap.get? ((run service (lateWrites ++ [.step 2]) (opened {})).records id) acme =
        some record ∧
      (Resolution.Merges m (SortedMap.get? ((run service lateWrites (opened {})).records id) acme)
          schema record outcome ↔
        Resolution.Undisturbed m schema seen
          (SortedMap.get? ((run service lateWrites (opened {})).records id) acme)) := by
  have changed : SortedMap.get? ((run service (lateWrites ++ [.step 2]) (opened {})).records id) acme ≠
      SortedMap.get? ((run service lateWrites (opened {})).records id) acme := by decide
  have keeps : KeepsRecords id (.step 2) := trivial
  obtain ⟨_, m, schema, seen, record, outcome, move, own, -, loaded, -, after, -, right, -⟩ :=
    merges_replaced_iff service_onStore {} keeps changed
  obtain rfl := Move.step.inj move
  exact ⟨⟨service_onStore, keeps, changed⟩, m, schema, seen, record, outcome, own, loaded, after,
    right⟩

/-- The change and the creation both report the first record of the company, and the deletion, which
replaces a record with a name, reports that there was none and takes the name away. -/
theorem not_merges_replaced_lateWrites :
    ((run service lateWrites (opened {})).dispatches.get? 0).bind (·.result?) =
      some (.ok (.applied .inserted)) ∧
    ((run service lateWrites (opened {})).dispatches.get? 1).bind (·.result?) =
      some (.ok (.applied .inserted)) ∧
    ((run service (lateWrites ++ steps 2 2) (opened {})).dispatches.get? 2).bind (·.result?) =
      some (.ok .noop) ∧
    ∃ replaced record,
      SortedMap.get? ((run service lateWrites (opened {})).records id) acme = some replaced ∧
      SortedMap.get? ((run service (lateWrites ++ steps 2 2) (opened {})).records id) acme =
        some record ∧
      replaced.fields.get? "name" = some (.str "Acme Ltd") ∧ record.fields.get? "name" = none ∧
      ¬ Resolution.Merges (acmeDeleted ∅ (stamp 3)) (some replaced) companies.schema record .noop := by
  refine ⟨rfl, rfl, rfl, _, _, rfl, rfl, rfl, rfl, fun merges => ?_⟩
  obtain ⟨-, -, -, reported⟩ := Resolution.merges_some_iff.1 merges
  cases reported

end Samples

end Crew

end Replica

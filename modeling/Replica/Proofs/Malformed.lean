import Replica.Proofs.Course
import Replica.Proofs.Sample
/-! Malformed messages have no effect. The snapshot is checked in two places, before a wait and in the
merge, and on every way past the first the second follows, except where a deletion finds no record: it
leaves its mark unread. Apart from that, dispatches of malformed messages leave the store alone, so
whatever else is going on goes on as if they had never been received. -/
namespace Replica

/-- A handler accepts the message, but its snapshot is not of the handler's shape: a required field is
missing or null although the entity is not deleted, or the deletion mark is there, not null and not a
truth value. -/
def Registry.Malformed (registry : Registry) (m : Message) : Prop :=
  ∃ handler, registry.handlerFor? m = some handler ∧
    (m.action.isDeletion = false ∧
        (∃ spec ∈ handler.schema.fields, spec.required = true ∧
          Snapshot.has m.snapshot spec.name = false) ∨
      ∃ name value, handler.schema.softDelete = some name ∧ m.snapshot.get? name = some value ∧
        value.isNull = false ∧ value.bool? = none)

namespace Registry

variable {registry : Registry} {m : Message}

/-- Malformed are the messages that are accepted and do not pass the check for their action. -/
theorem malformed_iff :
    registry.Malformed m ↔ ∃ schema, registry.schemaFor? m = some schema ∧
      schema.check m.snapshot (!m.action.isDeletion) ≠ .valid := by
  have unfit (schema : Schema) :
      schema.check m.snapshot (!m.action.isDeletion) ≠ .valid ↔
        m.action.isDeletion = false ∧
            (∃ spec ∈ schema.fields, spec.required = true ∧
              Snapshot.has m.snapshot spec.name = false) ∨
          ∃ name value, schema.softDelete = some name ∧ m.snapshot.get? name = some value ∧
            value.isNull = false ∧ value.bool? = none := by
    rw [Ne, Schema.check_eq_valid_iff, Classical.not_and_iff_not_or_not]
    simp [Schema.HasRequired, Schema.MarkFits]
  simp only [schemaFor?, Option.map_eq_some_iff, Malformed]
  constructor
  · rintro ⟨handler, found, misshapen⟩
    exact ⟨handler.schema, ⟨handler, found, rfl⟩, (unfit _).2 misshapen⟩
  · rintro ⟨_, ⟨handler, found, rfl⟩, misshapen⟩
    exact ⟨handler, found, (unfit _).1 misshapen⟩

/-- A message waits only if its snapshot has passed the check. -/
theorem Malformed.not_waits (malformed : registry.Malformed m) : ¬ registry.Waits m := by
  rintro ⟨handler, keys, found, needed⟩
  obtain ⟨schema, known, misshapen⟩ := malformed_iff.1 malformed
  obtain rfl : handler.schema = schema := by simpa [schemaFor?, found] using known
  unfold Dispatch.dependencies at needed
  grind

end Registry

namespace Dispatch

variable {σ : Type} {c : Consumer σ} {store : σ → Store}

/-- The dispatch has not come to anything but to find its message outdated or to set it aside as
malformed. -/
def Harmless (d : Dispatch) : Prop :=
  d.phase = .arrived ∨ (∃ schema, d.phase = .loading schema) ∨
    d.verdict? = some (.ok .stale) ∨ d.verdict? = some (.ok (.deadLettered .malformedSnapshot))

theorem harmless_of_stale {d : Dispatch} (phase : d.phase = .closing (.plain .stale)) :
    d.Harmless := by
  simp [Harmless, verdict?, phase, Ending.result]

theorem harmless_of_malformed {d : Dispatch} {key : EntityKey} {reasons : List String}
    (phase : d.phase = .closing (.failed (.malformedSnapshot key reasons))) : d.Harmless := by
  simp [Harmless, verdict?, phase, Ending.result, SyncError.isRetryable, Ending.reasonFor]

/-- The dispatch of a malformed message, unless it is a deletion that finds no record, remains without
harm and leaves the store alone. -/
theorem harmless_step (on : c.OnStore store) (now : Instant) (desk : Desk σ) {d : Dispatch}
    (malformed : c.registry.Malformed d.message) (fits : d.phase.Fits c.registry d.message)
    (harmless : d.Harmless)
    (known : ∀ schema, d.phase = .loading schema → d.message.action.isDeletion = true →
      ∃ record, (store desk.store).load d.message.key = some record) :
    (d.step c now desk).2.Harmless ∧ (d.step c now desk).1.store = desk.store := by
  obtain ⟨schema, accepted, misshapen⟩ := Registry.malformed_iff.1 malformed
  have made := d.phase_step on now desk
  rcases harmless with phase | ⟨found, phase⟩ | decided | decided
  · simp only [phase] at made
    refine ⟨?_, by simp [step, phase]⟩
    rcases receive_cases c.registry c.budget now d.message with ⟨-, unknown⟩ |
      ⟨_, -, ⟨reasons, ends⟩ | loads | ⟨waits, -⟩⟩
    · simp [unknown] at accepted
    · exact harmless_of_malformed (made.trans ends)
    · exact .inr (.inl ⟨_, made.trans loads⟩)
    · exact absurd waits malformed.not_waits
  · rw [phase] at fits
    obtain rfl : schema = found := Option.some.inj (accepted.symm.trans fits)
    simp only [phase] at made
    refine ⟨?_, by simp [step, phase, on.load]⟩
    rcases onLoad_cases schema d.message ((store desk.store).load d.message.key) with
      ⟨record, outcome, -, merges⟩ | ⟨ends, -⟩ | ⟨reasons, ends, -⟩
    · -- the merge of a deletion checks the snapshot only if it finds a record
      cases deletion : d.message.action.isDeletion with
      | true =>
        obtain ⟨old, there⟩ := known schema phase deletion
        rw [there] at merges
        exact absurd (Resolution.merges_some_iff.1 merges).2.1 misshapen
      | false =>
        rw [deletion] at misshapen
        exact absurd (merges.check_eq_valid deletion) misshapen
    · exact harmless_of_stale (made.trans ends)
    · exact harmless_of_malformed (made.trans ends)
  · obtain ⟨still, same⟩ := step_of_verdict? decided c now desk
    exact ⟨.inr (.inr (.inl still)), same⟩
  · obtain ⟨still, same⟩ := step_of_verdict? decided c now desk
    exact ⟨.inr (.inr (.inr still)), same⟩

end Dispatch

namespace Crew

variable {σ : Type} {c : Consumer σ} {store : σ → Store} {moves : List (Move σ)} {bad : Nat → Bool}

/-- The move receives a message under one of these numbers, or is a step of such a dispatch. -/
def Move.concerns (bad : Nat → Bool) : Move σ → Bool
  | receive id _ => bad id
  | step id => bad id
  | _ => false

/-- Only malformed messages are received under these numbers, and no dispatch of a deletion among them
loads when its entity has no record. -/
structure OnlyMalformed (c : Consumer σ) (store : σ → Store) (s : σ) (bad : Nat → Bool)
    (moves : List (Move σ)) : Prop where
  /-- What is received is malformed. -/
  malformed : ∀ id m, .receive id m ∈ moves → bad id = true → c.registry.Malformed m
  /-- A deletion finds a record. -/
  known : ∀ before id rest m schema, moves = before ++ .step id :: rest → bad id = true →
    (run c before (opened s)).dispatches.get? id = some ⟨m, .loading schema⟩ →
    m.action.isDeletion = true →
    ∃ record, SortedMap.get? ((run c before (opened s)).records store) m.key = some record

namespace OnlyMalformed

variable {s : σ}

theorem of_append {later : List (Move σ)} (only : OnlyMalformed c store s bad (moves ++ later)) :
    OnlyMalformed c store s bad moves where
  malformed id m received := only.malformed id m (List.mem_append_left _ received)
  known before id rest m schema split :=
    only.known before id (rest ++ later) m schema (by simp [split])

theorem malformed_of_get? (only : OnlyMalformed c store s bad moves) {id : Nat} {d : Dispatch}
    (isBad : bad id = true) (found : (run c moves (opened s)).dispatches.get? id = some d) :
    c.registry.Malformed d.message :=
  only.malformed id d.message (receive_mem_of_get? found) isBad

/-- The step at the end of the moves is without harm, if all was before. -/
theorem harmless_last (on : c.OnStore store) {id : Nat}
    (only : OnlyMalformed c store s bad (moves ++ [.step id])) (isBad : bad id = true) {d : Dispatch}
    (found : (run c moves (opened s)).dispatches.get? id = some d)
    (harmless : d.Harmless) (now : Instant) :
    (d.step c now (run c moves (opened s)).desk).2.Harmless ∧
      (d.step c now (run c moves (opened s)).desk).1.store = (run c moves (opened s)).desk.store := by
  refine Dispatch.harmless_step on now _ (only.of_append.malformed_of_get? isBad found)
    (fits_run found) harmless ?_
  intro schema phase deletion
  refine only.known moves id [] d.message schema rfl isBad ?_ deletion
  rw [found, ← phase]

/-- The dispatches of malformed messages remain without harm throughout a run. -/
theorem harmless (on : c.OnStore store) (only : OnlyMalformed c store s bad moves) {id : Nat}
    {d : Dispatch} (isBad : bad id = true)
    (found : (run c moves (opened s)).dispatches.get? id = some d) : d.Harmless := by
  induction moves using List.reverseRec generalizing d with
  | nil => cases found
  | append_singleton moves move ih =>
    rw [run_append, run_cons, run_nil] at found
    rcases get?_next_cases found with still | ⟨m, rfl, -, rfl⟩ | ⟨before, rfl, there, -, rfl⟩
    · exact ih only.of_append still
    · exact .inl rfl
    · exact (only.harmless_last on isBad there (ih only.of_append there) _).1

/-- The moves of these dispatches leave the store alone. -/
theorem store_next (on : c.OnStore store) {move : Move σ}
    (only : OnlyMalformed c store s bad (moves ++ [move])) (isBad : move.concerns bad = true) :
    (next c (run c moves (opened s)) move).desk.store = (run c moves (opened s)).desk.store := by
  rcases next_cases c (run c moves (opened s)) move with same | ⟨id, m, rfl, -, made⟩ |
    ⟨id, d, rfl, there, -, made⟩ | ⟨time, rfl, -⟩ | ⟨f, rfl, -⟩
  · rw [same]
  · rw [made]
  · rw [made]
    exact (only.harmless_last on isBad there (only.of_append.harmless on isBad there) _).2
  · cases isBad
  · cases isBad

end OnlyMalformed

/-- Two crews agree on the store, on the time and on all dispatches but those under these numbers. -/
structure Alike (bad : Nat → Bool) (full lean : Crew σ) : Prop where
  /-- They agree on the store. -/
  store_eq : full.desk.store = lean.desk.store
  /-- They agree on the time. -/
  now_eq : full.now = lean.now
  /-- They agree on the other dispatches. -/
  get?_eq : ∀ id, bad id = false → full.dispatches.get? id = lean.dispatches.get? id

namespace Alike

variable {full lean : Crew σ}

/-- A move of another dispatch, or of none, does the same to both. -/
theorem next_both (alike : Alike bad full lean) {move : Move σ} (other : move.concerns bad = false) :
    Alike bad (next c full move) (next c lean move) := by
  cases move with
  | receive id m =>
    have same := alike.get?_eq id other
    cases found : lean.dispatches.get? id with
    | some d => simpa [next, same, found] using alike
    | none =>
      refine ⟨by simpa [next, same, found] using alike.store_eq,
        by simpa [next, same, found] using alike.now_eq, fun n good => ?_⟩
      simp only [next, same, found, SortedMap.get?_insert, alike.get?_eq n good]
  | step id =>
    have same := alike.get?_eq id other
    cases found : lean.dispatches.get? id with
    | none => simpa [next, same, found] using alike
    | some d =>
      by_cases ready : d.ready lean.now = true
      · obtain ⟨stores, steps⟩ := d.step_congr c lean.now alike.store_eq
        refine ⟨by simpa [next, same, found, alike.now_eq, ready] using stores,
          by simp [next, same, found, alike.now_eq, ready], fun n good => ?_⟩
        simp [next, same, found, alike.now_eq, ready, SortedMap.get?_insert, alike.get?_eq n good,
          steps]
      · simpa [next, same, found, alike.now_eq, ready] using alike
  | pass time => exact ⟨alike.store_eq, congrArg (· + time) alike.now_eq, alike.get?_eq⟩
  | poke f => exact ⟨congrArg f alike.store_eq, alike.now_eq, alike.get?_eq⟩

/-- A move under these numbers that leaves the store alone may be left out. -/
theorem next_left (alike : Alike bad full lean) {move : Move σ} (isBad : move.concerns bad = true)
    (kept : (next c full move).desk.store = full.desk.store) : Alike bad (next c full move) lean := by
  have aside {id n : Nat} (d : Dispatch) (isBad : bad id = true) (good : bad n = false) :
      (full.dispatches.insert id d).get? n = lean.dispatches.get? n := by
    have other : n ≠ id := by
      rintro rfl
      simp [good] at isBad
    rw [SortedMap.get?_insert_of_ne _ _ other, alike.get?_eq n good]
  have store_eq := kept.trans alike.store_eq
  rcases next_cases c full move with same | ⟨id, m, rfl, -, made⟩ | ⟨id, d, rfl, -, -, made⟩ |
    ⟨time, rfl, -⟩ | ⟨f, rfl, -⟩
  · rw [same]
    exact alike
  · rw [made] at store_eq ⊢
    exact ⟨store_eq, alike.now_eq, fun n good => aside _ isBad good⟩
  · rw [made] at store_eq ⊢
    exact ⟨store_eq, alike.now_eq, fun n good => aside _ isBad good⟩
  · cases isBad
  · cases isBad

end Alike

/-- A run of malformed messages among others is like the run of the others alone. -/
theorem alike_run (on : c.OnStore store) {s : σ} (only : OnlyMalformed c store s bad moves) :
    Alike bad (run c moves (opened s))
      (run c (moves.filter fun move => !move.concerns bad) (opened s)) := by
  induction moves using List.reverseRec with
  | nil => exact ⟨rfl, rfl, fun _ _ => rfl⟩
  | append_singleton moves move ih =>
    have before := ih only.of_append
    rw [List.filter_append, run_append, run_cons, run_nil, run_append]
    cases concerned : move.concerns bad with
    | false => simpa [concerned] using before.next_both concerned
    | true => simpa [concerned] using before.next_left concerned (only.store_next on concerned)

/-- In every run, dispatches of malformed messages, other than deletions that find no record, leave the
store alone at each of their moves; they give nothing but that the message was outdated or set aside as
malformed, and they do give it once they have made five steps. With them or without them, the store is
the same in the end, and so are all other dispatches. -/
theorem malformed_without_effect (on : c.OnStore store) {s : σ}
    (only : OnlyMalformed c store s bad moves) :
    (∀ before move rest, moves = before ++ move :: rest → move.concerns bad = true →
      (run c (before ++ [move]) (opened s)).desk.store = (run c before (opened s)).desk.store) ∧
    (∀ id d result, bad id = true → (run c moves (opened s)).dispatches.get? id = some d →
      d.result? = some result →
      result = .ok .stale ∨ result = .ok (.deadLettered .malformedSnapshot)) ∧
    (∀ before id m rest, moves = before ++ .receive id m :: rest → bad id = true →
      5 ≤ rest.countP (·.isStep id) →
      ∃ d, (run c moves (opened s)).dispatches.get? id = some d ∧ d.result?.isSome = true) ∧
    (run c moves (opened s)).desk.store =
      (run c (moves.filter fun move => !move.concerns bad) (opened s)).desk.store ∧
    (∀ id, bad id = false → (run c moves (opened s)).dispatches.get? id =
      (run c (moves.filter fun move => !move.concerns bad) (opened s)).dispatches.get? id) := by
  have alike := alike_run on only
  refine ⟨?_, ?_, ?_, alike.store_eq, alike.get?_eq⟩
  · rintro before move rest rfl concerned
    rw [List.append_cons] at only
    rw [run_append, run_cons, run_nil]
    exact only.of_append.store_next on concerned
  · intro id d result isBad found given
    have decided := Dispatch.verdict?_of_result? given
    rcases only.harmless on isBad found with phase | ⟨schema, phase⟩ | stale | aside
    · simp [Dispatch.verdict?, phase] at decided
    · simp [Dispatch.verdict?, phase] at decided
    · exact .inl (Option.some.inj (decided.symm.trans stale))
    · exact .inr (Option.some.inj (decided.symm.trans aside))
  · rintro before id m rest rfl isBad enough
    exact ends_after_receive (fun d found => (only.malformed_of_get? isBad found).not_waits) enough

section Samples

open Fixtures

/-- The fields of a snapshot whose deletion mark is a text. -/
def unreadable : Snapshot := SortedMap.ofPairs [("name", .str "Acme"), ("isDeleted", .str "yes")]

/-- A store that knows the company. -/
def acmeKnown : Store :=
  { records := SortedMap.insert ∅ acme
      { key := acme, fields := ∅, lastSyncedAt := stamp 1, isDeleted := false } }

/-- A malformed change and a malformed deletion around a sound change. -/
def malformedAround : List (Move Store) :=
  [ .receive 0 (acmeUpdated unreadable (stamp 3)), .receive 1 (acmeDeleted unreadable (stamp 2)),
    .receive 2 (acmeUpdated (SortedMap.ofPairs [("name", .str "Acme Ltd")]) (stamp 2)) ] ++
    steps 0 2 ++ steps 2 4 ++ steps 1 5 ++ steps 0 3

/-- The malformed deletion finds the record that was there from the beginning. -/
theorem onlyMalformed_malformedAround :
    OnlyMalformed service id acmeKnown (· != 2) malformedAround where
  malformed id m received isBad := by
    simp [malformedAround, steps] at received
    rcases received with ⟨rfl, rfl⟩ | ⟨rfl, rfl⟩ | ⟨rfl, rfl⟩
    · exact ⟨companies, rfl, .inr ⟨"isDeleted", .str "yes", rfl, rfl, rfl, rfl⟩⟩
    · exact ⟨companies, rfl, .inr ⟨"isDeleted", .str "yes", rfl, rfl, rfl, rfl⟩⟩
    · cases isBad
  known before id rest m schema split isBad loading deletion := by
    have own : m.key = acme := by
      have received : .receive id m ∈ malformedAround :=
        split ▸ List.mem_append_left _ (receive_mem_of_get? loading)
      simp [malformedAround, steps] at received
      rcases received with ⟨-, rfl⟩ | ⟨-, rfl⟩ | ⟨-, rfl⟩ <;> rfl
    have keeps : ∀ move ∈ before, KeepsRecords (fun store : Store => store) move := by
      have all : ∀ move ∈ malformedAround, KeepsRecords (fun store : Store => store) move := by
        simp [malformedAround, steps, Move.Within, or_imp, forall_and]
      exact fun move member => all move (split ▸ List.mem_append_left _ member)
    obtain ⟨later, found, -⟩ := advances_run service_onStore keeps (opened acmeKnown) acme _ rfl
    exact ⟨later, own ▸ found⟩

theorem malformed_without_effect_malformedAround :
    (service.OnStore id ∧ OnlyMalformed service id acmeKnown (· != 2) malformedAround) ∧
    (∀ id d result, (id != 2) = true →
      (run service malformedAround (opened acmeKnown)).dispatches.get? id = some d →
      d.result? = some result →
      result = .ok .stale ∨ result = .ok (.deadLettered .malformedSnapshot)) ∧
    (run service malformedAround (opened acmeKnown)).desk.store =
      (run service (malformedAround.filter fun move => !move.concerns (· != 2))
        (opened acmeKnown)).desk.store := by
  have only := onlyMalformed_malformedAround
  obtain ⟨-, results, -, store_eq, -⟩ := malformed_without_effect service_onStore only
  exact ⟨⟨service_onStore, only⟩, results, store_eq⟩

/-- A malformed deletion of a company never seen, and then the company's creation, which is older. -/
def deletedUnseen : List (Move Store) :=
  [.receive 0 (acmeDeleted unreadable (stamp 2))] ++ steps 0 4 ++
    [.receive 1 (companyCreated "c-1" "Acme" (stamp 1))] ++ steps 1 4

/-- A malformed deletion that finds no record is not set aside: it leaves its mark, and the creation
comes too late. -/
theorem not_without_effect_deletedUnseen :
    service.registry.Malformed (acmeDeleted unreadable (stamp 2)) ∧
    ((run service deletedUnseen (opened {})).dispatches.get? 0).bind (·.result?) =
      some (.ok .noop) ∧
    ((run service deletedUnseen (opened {})).dispatches.get? 1).bind (·.result?) =
      some (.ok .stale) ∧
    SortedMap.get? ((run service deletedUnseen (opened {})).records id) acme =
      some (Resolution.tombstoneOf (acmeDeleted unreadable (stamp 2))) ∧
    (run service deletedUnseen (opened {})).desk.store ≠
      (run service (deletedUnseen.filter fun move => !move.concerns (· == 0))
        (opened {})).desk.store :=
  ⟨⟨companies, rfl, .inr ⟨"isDeleted", .str "yes", rfl, rfl, rfl, rfl⟩⟩, rfl, rfl, rfl, by decide⟩

end Samples

end Crew

end Replica

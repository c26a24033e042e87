import Replica.Proofs.Course
import Replica.Proofs.Sample
/-! Records have the shape that is asked of them. A record is made in three ways, from a snapshot alone,
as the bare mark of a deletion, and by laying a deletion over an older record that was loaded before;
each keeps to the schema if the older record does. So in every run all records keep to the schemas of
their handlers, and stand under their own keys. -/
namespace Replica

/-- The record keeps to a schema: it has only fields that the schema keeps and, unless the entity is
deleted, all those that have to be there. -/
structure Record.Conforms (record : Record) (schema : Schema) : Prop where
  kept : ∀ name value, record.fields.get? name = some value → name ∈ schema.names
  complete : record.isDeleted = false → schema.HasRequired record.fields

namespace Schema

theorem mem_names_of_get?_project {schema : Schema} {s : Snapshot} {name : String} {value : Value}
    (found : (schema.project s).get? name = some value) : name ∈ schema.names := by
  rw [project, Snapshot.get?_project] at found
  by_contra foreign
  simp [foreign] at found

theorem HasRequired.project {schema : Schema} {s : Snapshot} (has : schema.HasRequired s) :
    schema.HasRequired (schema.project s) := by
  intro spec listed required
  have named : spec.name ∈ schema.names := List.mem_map.2 ⟨spec, listed, rfl⟩
  have there := has spec listed required
  rw [Snapshot.has] at there ⊢
  rw [Schema.project, Snapshot.get?_project, if_pos named]
  exact there

end Schema

namespace Resolution

variable {m : Message} {schema : Schema} {record : Record} {outcome : Outcome}

/-- What a merge has written keeps to the schema, if the record merged into does. -/
theorem Merges.conforms {current : Option Record} (merges : Merges m current schema record outcome)
    (older : ∀ old, current = some old → old.Conforms schema) : record.Conforms schema := by
  obtain ⟨fields, rfl, whole⟩ := merges.eq_recordOf
  constructor
  · intro name value found
    change fields.get? name = some value at found
    cases deletion : m.action.isDeletion with
    | false =>
      rw [whole deletion] at found
      exact Schema.mem_names_of_get?_project found
    | true =>
      -- a field comes with the deletion or from the record that it is laid over
      cases covered : (schema.project m.snapshot).get? name with
      | some told => exact Schema.mem_names_of_get?_project covered
      | none =>
        have kept : fields.get? name = current.bind (·.fields.get? name) :=
          merges.get?_fields deletion covered
        rw [kept] at found
        obtain ⟨old, there, had⟩ := Option.bind_eq_some_iff.1 found
        exact (older old there).kept name value had
  · intro live
    have lives : m.action.isDeletion = false := by
      have unmarked : deletedAfter m schema = false := live
      simp only [deletedAfter, Bool.or_eq_false_iff] at unmarked
      exact unmarked.1
    have has : schema.HasRequired m.snapshot :=
      (Schema.check_eq_valid_iff.1 (merges.check_eq_valid lives)).1 rfl
    change schema.HasRequired fields
    rw [whole lives]
    exact has.project

end Resolution

/-- A handler is registered for the kind of the record, and the record keeps to its schema. -/
def Registry.Admits (registry : Registry) (record : Record) : Prop :=
  ∃ handler, SortedMap.get? registry record.key.kind = some handler ∧
    record.Conforms handler.schema

/-- A message is merged by the schema of the handler registered for its kind. -/
theorem Registry.get?_of_schemaFor? {registry : Registry} {m : Message} {schema : Schema}
    (known : registry.schemaFor? m = some schema) :
    ∃ handler, SortedMap.get? registry m.key.kind = some handler ∧ handler.schema = schema := by
  obtain ⟨handler, found, same⟩ := Option.map_eq_some_iff.1 known
  exact ⟨handler, (Option.filter_eq_some_iff.1 found).1, same⟩

namespace Records

variable {registry : Registry} {records : Records} {record : Record}

/-- Every record stands under its own key and keeps to the schema of its handler. -/
def WellFormed (registry : Registry) (records : Records) : Prop :=
  ∀ key record, SortedMap.get? records key = some record →
    record.key = key ∧ registry.Admits record

theorem WellFormed.upsert (fine : WellFormed registry records) (admitted : registry.Admits record) :
    WellFormed registry (records.upsert record).2 := by
  rcases upsert_cases records record with ⟨-, -, inserted⟩ | ⟨current, -, -, late⟩
  · rw [inserted]
    intro key found there
    rw [SortedMap.get?_insert] at there
    split at there
    · obtain rfl := Option.some.inj there
      exact ⟨Eq.symm ‹_›, admitted⟩
    · exact fine key found there
  · rw [late]
    exact fine

end Records

namespace Dispatch

variable {σ : Type} {c : Consumer σ} {store : σ → Store}

/-- While all records are well-formed, a dispatch is only ever about to write one that keeps to the
schema of its handler. -/
theorem admits_of_writing_step (on : c.OnStore store) {now : Instant} {desk : Desk σ} {d : Dispatch}
    (fine : Records.WellFormed c.registry (store desk.store).records)
    (fits : d.phase.Fits c.registry d.message) {record : Record} {outcome : Outcome}
    (writes : (d.step c now desk).2.phase = .writing record outcome) : c.registry.Admits record := by
  obtain ⟨schema, phase, merges⟩ := merges_of_writing_step on writes
  rw [phase] at fits
  obtain ⟨handler, registered, rfl⟩ := Registry.get?_of_schemaFor? fits
  refine ⟨handler, by rw [merges.key_eq, registered], merges.conforms fun old there => ?_⟩
  obtain ⟨own, other, found, conforms⟩ := fine _ old there
  -- the record loaded is of the message's kind, so its handler is the message's
  rw [own, registered] at found
  obtain rfl := Option.some.inj found
  exact conforms

theorem kept_admits (on : c.OnStore store) :
    Crew.Kept c (fun s => Records.WellFormed c.registry (store s).records) fun _ d =>
      d.phase.Fits c.registry d.message ∧
        ∀ record outcome, d.phase = .writing record outcome → c.registry.Admits record where
  sound_step now desk d fine holds := by
    rw [store_step on]
    split
    · rename_i record outcome phase
      rcases (store desk.store).upsertIfNewer_cases record with ⟨-, same⟩ | ⟨-, written⟩
      · rw [same]
        exact fine
      · rw [written]
        exact fine.upsert (holds.2 record outcome phase)
    · exact fine
  arrives _ _ _ := by
    refine ⟨trivial, fun record outcome phase => ?_⟩
    cases phase
  own now desk d fine holds :=
    ⟨(kept_fits c).own now desk d trivial holds.1,
      fun _ _ writes => admits_of_writing_step on fine holds.1 writes⟩
  other _ _ _ _ _ holds _ := holds

end Dispatch

namespace Crew

variable {σ : Type} {c : Consumer σ} {store : σ → Store} {moves : List (Move σ)}

theorem wellFormed_run (on : c.OnStore store) (keeps : ∀ move ∈ moves, KeepsRecords store move)
    {s : σ} (fine : Records.WellFormed c.registry (store s).records) :
    Records.WellFormed c.registry ((run c moves (opened s)).records store) := by
  refine ((Dispatch.kept_admits on).run ?_ keeps fine).1
  intro s t same fine
  have records : (store t).records = (store s).records := same
  exact ⟨records ▸ fine, fun _ holds => holds⟩

/-- In every run of a consumer on a store that was empty at first and that nobody else writes to, every
record stands under its own key; a handler is registered for its kind, whose schema keeps each of its
fields; and if the record is live, all fields that have to be there are there and not null. -/
theorem records_conform (on : c.OnStore store) (keeps : ∀ move ∈ moves, KeepsRecords store move)
    {s : σ} (fresh : (store s).records = ∅) {key : EntityKey} {record : Record}
    (found : SortedMap.get? ((run c moves (opened s)).records store) key = some record) :
    record.key = key ∧
    ∃ handler, SortedMap.get? c.registry key.kind = some handler ∧
      (∀ name value, record.fields.get? name = some value →
        ∃ spec ∈ handler.schema.fields, spec.name = name) ∧
      (record.isLive = true → ∀ spec ∈ handler.schema.fields, spec.required = true →
        ∃ value, record.fields.get? spec.name = some value ∧ value.isNull = false) := by
  have fine : Records.WellFormed c.registry (store s).records := by
    intro key record there
    rw [fresh] at there
    cases there
  obtain ⟨own, handler, registered, conforms⟩ := wellFormed_run on keeps fine key record found
  subst own
  refine ⟨rfl, handler, registered, fun name value had => ?_, fun live spec listed required => ?_⟩
  · exact List.mem_map.1 (conforms.kept name value had)
  · have there := conforms.complete (by simpa [Record.isLive] using live) spec listed required
    rw [Snapshot.has] at there
    cases looked : record.fields.get? spec.name with
    | none => simp [looked] at there
    | some value => exact ⟨value, rfl, by simpa [looked] using there⟩

section Samples

open Fixtures

/-- A deletion that tells a city loads the company's record before a change with a field too many has
written, and its own write is told to fail; once redelivered it lays the city over the newer record.
Another company is deleted before it is created, and then created anew. -/
def overlaid : List (Move Store) :=
  [ .receive 0 (companyCreated "c-1" "Acme" (stamp 1)) ] ++ steps 0 4 ++
    [ .receive 1 (acmeUpdated (SortedMap.ofPairs [("name", .str "Acme Ltd"), ("size", .str "3")])
        (stamp 2)),
      .receive 2 (acmeDeleted (SortedMap.ofPairs [("city", .str "Ulm")]) (stamp 3)) ] ++
    steps 2 2 ++ steps 1 4 ++ [.poke (·.failNextWrites 1)] ++ steps 2 2 ++
    [ .receive 3 (acmeDeleted (SortedMap.ofPairs [("city", .str "Ulm")]) (stamp 3)),
      .receive 4 { acmeDeleted ∅ (stamp 1) with entityId := "c-2" } ] ++
    steps 4 4 ++ steps 3 4 ++ [.receive 5 (companyCreated "c-2" "Other" (stamp 2))] ++ steps 5 4

theorem records_conform_overlaid :
    (service.OnStore id ∧ ∀ move ∈ overlaid, KeepsRecords id move) ∧
    (∃ deleted, SortedMap.get? ((run service overlaid (opened {})).records id) acme = some deleted ∧
      deleted.isLive = false ∧ deleted.fields.keys = ["city", "name"] ∧
      ∀ name value, deleted.fields.get? name = some value →
        ∃ spec ∈ companies.schema.fields, spec.name = name) ∧
    ∃ live, SortedMap.get? ((run service overlaid (opened {})).records id) ⟨"company", "c-2"⟩ =
        some live ∧
      live.isLive = true ∧ ∀ spec ∈ companies.schema.fields, spec.required = true →
        ∃ value, live.fields.get? spec.name = some value ∧ value.isNull = false := by
  have keeps : ∀ move ∈ overlaid, KeepsRecords id move := by
    simp [overlaid, steps, Move.Within, Store.failNextWrites]
  refine ⟨⟨service_onStore, keeps⟩, ⟨_, rfl, rfl, rfl, ?_⟩, _, rfl, rfl, ?_⟩
  · have found : SortedMap.get? ((run service overlaid (opened {})).records id) acme = some _ := rfl
    obtain ⟨-, handler, registered, kept, -⟩ := records_conform service_onStore keeps rfl found
    obtain rfl := Option.some.inj registered
    exact kept
  · have found : SortedMap.get? ((run service overlaid (opened {})).records id) ⟨"company", "c-2"⟩ =
        some _ := rfl
    obtain ⟨-, handler, registered, -, complete⟩ := records_conform service_onStore keeps rfl found
    obtain rfl := Option.some.inj registered
    exact complete rfl

end Samples

end Crew

end Replica

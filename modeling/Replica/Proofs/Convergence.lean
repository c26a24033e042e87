import Replica.Proofs.Retention
/-! The newest message wins. When dispatches that wait for nothing have all ended, each entity has the
record of its newest message and entities without a message have none, in whatever order messages
came and however loads and writes were interleaved. Every record stems from a message received, and
every message is covered by a record once its dispatch has ended; together these leave no choice. -/
namespace Replica

/-- The message goes to a handler that asks for no other entity, and its snapshot passes the check. -/
def Registry.TakesFreely (registry : Registry) (m : Message) : Prop :=
  ∃ handler, registry.handlerFor? m = some handler ∧ handler.requirements = [] ∧
    handler.schema.check m.snapshot (!m.action.isDeletion) = .valid

theorem Dispatch.dependencies_of_requirements {handler : Handler}
    (asksNothing : handler.requirements = []) (m : Message) : dependencies handler m = .ok none := by
  simp [dependencies, asksNothing]

namespace Registry.TakesFreely

variable {registry : Registry} {m : Message}

theorem not_waits (taken : registry.TakesFreely m) : ¬ registry.Waits m := by
  obtain ⟨handler, found, asksNothing, -⟩ := taken
  rintro ⟨other, keys, same, needed⟩
  obtain rfl := Option.some.inj (found.symm.trans same)
  rw [Dispatch.dependencies_of_requirements asksNothing] at needed
  cases needed

/-- Such a message goes straight on to its record. -/
theorem receive_eq (taken : registry.TakesFreely m) (budget : WaitBudget) (now : Instant) :
    ∃ schema, Dispatch.receive registry budget now m = .loading schema := by
  obtain ⟨handler, found, asksNothing, -⟩ := taken
  have free := Dispatch.dependencies_of_requirements asksNothing m
  exact ⟨handler.schema, by simp [Dispatch.receive, found, free]⟩

/-- By the schema that the message is merged by, its snapshot passes the check. -/
theorem check_eq_valid (taken : registry.TakesFreely m) {schema : Schema}
    (known : registry.schemaFor? m = some schema) :
    schema.check m.snapshot (!m.action.isDeletion) = .valid := by
  obtain ⟨handler, found, -, fits⟩ := taken
  obtain rfl : handler.schema = schema := by simpa [schemaFor?, found] using known
  exact fits

end Registry.TakesFreely

namespace Dispatch

variable {σ : Type} {c : Consumer σ} {store : σ → Store}

/-- The dispatch does not wait, and gives nothing but that its message was merged. -/
def Smooth (d : Dispatch) : Prop :=
  ¬ d.phase.IsWaiting ∧
    ∀ result, d.verdict? = some result → ∃ outcome, result = .ok outcome ∧ outcome.state = .applied

theorem smooth_of_closing {d : Dispatch} {outcome : Outcome}
    (phase : d.phase = .closing (.plain outcome)) (merged : outcome.state = .applied) :
    d.Smooth := by
  refine ⟨by simp [phase, Phase.IsWaiting], fun result given => ?_⟩
  exact ⟨outcome, by simpa [verdict?, phase, Ending.result, eq_comm] using given, merged⟩

theorem smooth_of_undecided {d : Dispatch} (going : ¬ d.phase.IsWaiting) (open_ : d.verdict? = none) :
    d.Smooth :=
  ⟨going, fun result given => by simp [open_] at given⟩

/-- What a step makes of an undecided dispatch whose message is taken freely, and of the writes told to fail. -/
inductive Proceeds (before after : Store) (later : Dispatch) : Prop
  | on (same : after.failingWrites = before.failingWrites) (going : ¬ later.phase.IsWaiting)
    (open_ : later.verdict? = none)
  | merged {outcome : Outcome} (same : after.failingWrites = before.failingWrites)
    (phase : later.phase = .closing (.plain outcome)) (merged : outcome.state = .applied)
  /-- The write fails as it was told to. -/
  | failed (told : before.failingWrites = after.failingWrites + 1)
    (phase : later.phase = .closing (.failed Store.injectedFailure))

theorem proceeds_step (on : c.OnStore store) (now : Instant) (desk : Desk σ) {d : Dispatch}
    (taken : c.registry.TakesFreely d.message) (fits : d.phase.Fits c.registry d.message)
    (going : ¬ d.phase.IsWaiting) (open_ : d.verdict? = none) :
    Proceeds (store desk.store) (store (d.step c now desk).1.store) (d.step c now desk).2 := by
  have made := d.phase_step on now desk
  have kept := d.store_step on now desk
  cases phase : d.phase with
  | arrived =>
    obtain ⟨schema, loads⟩ := taken.receive_eq c.budget now
    simp only [phase, loads] at made kept
    exact .on (by rw [kept]) (by simp [made, Phase.IsWaiting]) (by simp [verdict?, made])
  | loading schema =>
    simp only [phase] at made kept
    rw [phase] at fits
    rcases onLoad_cases schema d.message ((store desk.store).load d.message.key) with
      ⟨record, outcome, goes, -⟩ | ⟨ends, -⟩ | ⟨reasons, -, unfit⟩
    · rw [goes] at made
      exact .on (by rw [kept]) (by simp [made, Phase.IsWaiting]) (by simp [verdict?, made])
    · exact .merged (by rw [kept]) (made.trans ends) rfl
    · exact absurd (taken.check_eq_valid fits) unfit
  | writing record outcome =>
    simp only [phase] at made kept
    rw [phase] at fits
    obtain ⟨schema, current, -, merges⟩ := fits
    cases failing : (store desk.store).failingWrites with
    | succ left =>
      simp only [Store.upsertIfNewer, failing] at made kept
      exact .failed (by rw [kept, failing]) made
    | zero =>
      simp only [Store.upsertIfNewer, failing] at made kept
      have same : (store (d.step c now desk).1.store).failingWrites = (store desk.store).failingWrites := by
        rw [kept, failing]
      rcases onWrite_cases outcome (.ok ((store desk.store).records.upsert record).1) with
        ⟨error, failed, -⟩ | ⟨upsert, -, -, ends⟩ | ⟨upsert, -, -, ends⟩
      · cases failed
      · exact .merged same (made.trans ends) rfl
      · exact .merged same (made.trans ends) merges.state_eq
  | closing ending => simp [verdict?, phase] at open_
  | shelving letter result => simp [verdict?, phase] at open_
  | done result => simp [verdict?, phase] at open_
  | _ => exact absurd (by simp [phase, Phase.IsWaiting]) going

/-- On a store that takes every write, the dispatch of a message taken freely runs smoothly. -/
theorem smooth_step (on : c.OnStore store) (now : Instant) (desk : Desk σ) {d : Dispatch}
    (sturdy : (store desk.store).failingWrites = 0) (taken : c.registry.TakesFreely d.message)
    (fits : d.phase.Fits c.registry d.message) (smooth : d.Smooth) :
    (d.step c now desk).2.Smooth := by
  cases decided : d.verdict? with
  | some result =>
    have going := (step_of_not_waits taken.not_waits smooth.1 now desk).1
    have still := (step_of_verdict? decided c now desk).1
    exact ⟨going, fun later given =>
      smooth.2 later (decided.trans (still.symm.trans given))⟩
  | none =>
    cases proceeds_step on now desk taken fits smooth.1 decided with
    | on _ going open_ => exact smooth_of_undecided going open_
    | merged _ phase merged => exact smooth_of_closing phase merged
    | failed told => simp [sturdy] at told

/-- While no write is told to fail, dispatches of messages taken freely run smoothly. -/
theorem kept_smooth (on : c.OnStore store) :
    Crew.Kept c (fun s => (store s).failingWrites = 0) fun _ d =>
      d.phase.Fits c.registry d.message ∧ (c.registry.TakesFreely d.message → d.Smooth) where
  sound_step now desk d sturdy _ := by
    rw [store_step on]
    split
    · simp [Store.upsertIfNewer, sturdy]
    · exact sturdy
  arrives _ _ _ := ⟨trivial, fun _ => smooth_of_undecided id rfl⟩
  own now desk d sturdy holds := by
    refine ⟨(kept_fits c).own now desk d trivial holds.1, fun taken => ?_⟩
    rw [message_step] at taken
    exact smooth_step on now desk sturdy taken holds.1 (holds.2 taken)
  other _ _ _ _ _ holds _ := holds

end Dispatch

namespace Crew

variable {σ : Type} {c : Consumer σ} {store : σ → Store} {moves : List (Move σ)}

/-- Nobody but the dispatches touches the store, and no write is told to fail. -/
abbrev Quiet (store : σ → Store) : Move σ → Prop := Move.Within fun s t => store t = store s

theorem keepsRecords_of_quiet {move : Move σ} (quiet : Quiet store move) : KeepsRecords store move := by
  cases move with
  | poke f => exact fun s => congrArg Store.records (quiet s)
  | _ => trivial

theorem mem_messages_next (c : Consumer σ) {crew : Crew σ} (move : Move σ) {m : Message}
    (received : m ∈ crew.messages) : m ∈ (next c crew move).messages := by
  obtain ⟨id, d, found, rfl⟩ := mem_messages_iff.1 received
  have own (now : Instant) (desk : Desk σ) (e : Dispatch) (same : e.message = d.message) :
      (e.step c now desk).2.message = d.message := (e.message_step now desk).trans same
  exact mem_messages_iff.2 ⟨id, get?_next_of_get? (own _ _) move found rfl⟩

/-- Every record stems from a message received of its entity. -/
def Traced (registry : Registry) (messages : List Message) (records : Records) : Prop :=
  ∀ key record, SortedMap.get? records key = some record →
    ∃ m ∈ messages, m.key = key ∧ ∃ schema current outcome,
      registry.schemaFor? m = some schema ∧ Resolution.Merges m current schema record outcome

theorem Traced.key_eq {registry : Registry} {messages : List Message} {records : Records}
    (traced : Traced registry messages records) {key : EntityKey} {record : Record}
    (found : SortedMap.get? records key = some record) : record.key = key := by
  obtain ⟨m, -, own, schema, current, outcome, -, merges⟩ := traced key record found
  exact merges.key_eq.trans own

/-- Every record was there at first, or is the merge of a message received. -/
theorem stems_run (on : c.OnStore store) (keeps : ∀ move ∈ moves, KeepsRecords store move) (s : σ)
    {key : EntityKey} {record : Record}
    (found : SortedMap.get? ((run c moves (opened s)).records store) key = some record) :
    SortedMap.get? (store s).records key = some record ∨
      ∃ m ∈ (run c moves (opened s)).messages, m.key = key ∧ ∃ schema current outcome,
        c.registry.schemaFor? m = some schema ∧ Resolution.Merges m current schema record outcome := by
  induction moves using List.reverseRec generalizing record with
  | nil => exact .inl found
  | append_singleton moves move ih =>
    obtain ⟨early, last⟩ := List.forall_mem_append.1 keeps
    have keepsLast := last move (List.mem_singleton_self move)
    rw [run_append, run_cons, run_nil] at found ⊢
    -- a record that the last move did not change stems from where it did before, the others from its message
    by_cases same : SortedMap.get? ((next c (run c moves (opened s)) move).records store) key =
        SortedMap.get? ((run c moves (opened s)).records store) key
    · rcases ih early (same ▸ found) with old | ⟨m, received, own, stems⟩
      · exact .inl old
      · exact .inr ⟨m, mem_messages_next c move received, own, stems⟩
    · obtain ⟨id, d, written, outcome, -, there, own, phase, -, after, -⟩ :=
        merge_of_changed on s keepsLast same
      obtain rfl := Option.some.inj (after.symm.trans found)
      have fits := fits_run there
      rw [phase] at fits
      obtain ⟨schema, current, known, merges⟩ := fits
      exact .inr ⟨d.message, mem_messages_next c move (mem_messages_iff.2 ⟨id, d, there, rfl⟩), own,
        schema, current, outcome, known, merges⟩

/-- On a store that was empty at first, every record is the merge of a message received. -/
theorem traced_run (on : c.OnStore store) (keeps : ∀ move ∈ moves, KeepsRecords store move) (s : σ)
    (fresh : (store s).records = ∅) :
    Traced c.registry (run c moves (opened s)).messages ((run c moves (opened s)).records store) := by
  intro key record found
  rcases stems_run on keeps s found with old | stems
  · rw [fresh] at old
    cases old
  · exact stems

/-- Once all have ended, every message taken freely is covered. -/
theorem covers_of_finished (on : c.OnStore store) (quiet : ∀ move ∈ moves, Quiet store move) {s : σ}
    (sturdy : (store s).failingWrites = 0) (finished : (run c moves (opened s)).Finished)
    {m : Message} (received : m ∈ (run c moves (opened s)).messages)
    (taken : c.registry.TakesFreely m) :
    ((run c moves (opened s)).records store).Covers m := by
  obtain ⟨id, d, found, rfl⟩ := mem_messages_iff.1 received
  have outside (s t : σ) (same : store t = store s) (fine : (store s).failingWrites = 0) :
      (store t).failingWrites = 0 ∧ ∀ d : Dispatch,
        (d.phase.Fits c.registry d.message ∧ (c.registry.TakesFreely d.message → d.Smooth)) →
        d.phase.Fits c.registry d.message ∧ (c.registry.TakesFreely d.message → d.Smooth) :=
    ⟨same ▸ fine, fun _ holds => holds⟩
  have smooth := ((Dispatch.kept_smooth on).run outside quiet sturdy).2 id d found
  obtain ⟨result, given⟩ := Option.isSome_iff_exists.1 (finished id d found)
  have decided := Dispatch.verdict?_of_result? given
  obtain ⟨outcome, rfl, merged⟩ := (smooth.2 taken).2 result decided
  exact accounted_run on (fun move member => keepsRecords_of_quiet (quiet move member)) s found
    outcome decided merged

/-- Where all messages are taken freely, all dispatches do end: each after five steps of its own. -/
theorem ends_of_takesFreely {before rest : List (Move σ)} {s : σ} {id : Nat} {m : Message}
    (taken : ∀ sent ∈ (run c (before ++ .receive id m :: rest) (opened s)).messages,
      c.registry.TakesFreely sent) (enough : 5 ≤ rest.countP (·.isStep id)) :
    ∃ d, (run c (before ++ .receive id m :: rest) (opened s)).dispatches.get? id = some d ∧
      d.result?.isSome = true := by
  refine ends_after_receive (fun d found => ?_) enough
  have received := mem_messages_iff.2 ⟨id, d, found, rfl⟩
  exact (taken d.message received).not_waits

/-- The message is received, and no other of its entity has a greater stamp. -/
def IsNewest (crew : Crew σ) (m : Message) : Prop :=
  m ∈ crew.messages ∧ ∀ other ∈ crew.messages, other.key = m.key → other.emittedAt ≤ m.emittedAt

instance (crew : Crew σ) (m : Message) : Decidable (crew.IsNewest m) :=
  inferInstanceAs (Decidable (_ ∧ ∀ other ∈ crew.messages, _))

/-- Messages of one entity with one stamp are copies of each other. -/
def StampsTell (crew : Crew σ) : Prop :=
  ∀ a ∈ crew.messages, ∀ b ∈ crew.messages, a.key = b.key → a.emittedAt = b.emittedAt → a = b

instance (crew : Crew σ) : Decidable crew.StampsTell :=
  inferInstanceAs (Decidable (∀ a ∈ crew.messages, ∀ b ∈ crew.messages, _))

/-- Where every record stems from a message and all messages are covered, a record stems from the newest
message of its entity, since it covers all the others. -/
theorem isNewest_of_traced {registry : Registry} {crew : Crew σ} {records : Records}
    (traced : Traced registry crew.messages records) (covers : ∀ m ∈ crew.messages, records.Covers m)
    {key : EntityKey} {record : Record} (found : SortedMap.get? records key = some record) :
    ∃ newest, crew.IsNewest newest ∧ newest.key = key ∧ ∃ schema current outcome,
      registry.schemaFor? newest = some schema ∧
        Resolution.Merges newest current schema record outcome := by
  obtain ⟨newest, sent, own, schema, current, outcome, known, merges⟩ := traced key record found
  refine ⟨newest, ⟨sent, fun other among same => ?_⟩, own, schema, current, outcome, known, merges⟩
  obtain ⟨covering, there, asNew⟩ := covers other among
  rw [same, own, found] at there
  obtain rfl := Option.some.inj there
  exact merges.lastSyncedAt_eq ▸ asNew

/-- Where stamps tell messages apart, the record of an entity stems from its newest message and no other. -/
theorem merges_of_isNewest {registry : Registry} {crew : Crew σ} {records : Records}
    (traced : Traced registry crew.messages records) (covers : ∀ m ∈ crew.messages, records.Covers m)
    (copies : crew.StampsTell) {newest : Message} (isNewest : crew.IsNewest newest) :
    ∃ record, SortedMap.get? records newest.key = some record ∧ ∃ schema current outcome,
      registry.schemaFor? newest = some schema ∧
        Resolution.Merges newest current schema record outcome := by
  obtain ⟨record, found, -⟩ := covers newest isNewest.1
  obtain ⟨source, ⟨sent, greatest⟩, own, merges⟩ := isNewest_of_traced traced covers found
  -- the record stems from a message with the stamp of the newest, so from the newest itself
  have stamps : source.emittedAt = newest.emittedAt :=
    Stamp.le_antisymm (isNewest.2 source sent own) (greatest newest isNewest.1 own.symm)
  obtain rfl : source = newest := copies source sent newest isNewest.1 own stamps
  exact ⟨record, found, merges⟩

/-- Take any run on an empty store that nobody else touches, of any messages that are taken freely,
and let all dispatches have ended. Each entity that occurs has a newest message and exactly one record,
with the stamp of that message and its own deletion mark; unless the message is a deletion, the record
is the one that it makes of an entity never seen. No other entity has a record. -/
theorem newest_wins (on : c.OnStore store) {s : σ} (fresh : store s = {})
    (quiet : ∀ move ∈ moves, Quiet store move) {crew : Crew σ}
    (reached : run c moves (opened s) = crew)
    (taken : ∀ m ∈ crew.messages, c.registry.TakesFreely m) (copies : crew.StampsTell)
    (finished : crew.Finished) :
    (∀ m ∈ crew.messages, ∃ newest, crew.IsNewest newest ∧ newest.key = m.key) ∧
    (∀ newest, crew.IsNewest newest → ∃ handler record,
      c.registry.handlerFor? newest = some handler ∧
      SortedMap.get? (crew.records store) newest.key = some record ∧
      (∀ stored ∈ SortedMap.values (crew.records store), stored.key = newest.key ↔ stored = record) ∧
      record.lastSyncedAt = newest.emittedAt ∧
      record.isDeleted =
        (newest.action.isDeletion || handler.schema.isSoftDeleted newest.snapshot) ∧
      (newest.action.isDeletion = false →
        Resolution.resolve newest none handler.schema = .ok (.write record .inserted))) ∧
    (∀ key, (∀ m ∈ crew.messages, m.key ≠ key) → SortedMap.get? (crew.records store) key = none) := by
  have traced : Traced c.registry crew.messages (crew.records store) := by
    subst reached
    exact traced_run on (fun move member => keepsRecords_of_quiet (quiet move member)) s
      (by rw [fresh])
  have covers (m : Message) (received : m ∈ crew.messages) : (crew.records store).Covers m := by
    subst reached
    exact covers_of_finished on quiet (by rw [fresh]) finished received (taken m received)
  refine ⟨fun m received => ?_, fun newest isNewest => ?_, fun key unheard => ?_⟩
  · obtain ⟨record, found, -⟩ := covers m received
    obtain ⟨newest, isNewest, own, -⟩ := isNewest_of_traced traced covers found
    exact ⟨newest, isNewest, own⟩
  · obtain ⟨record, found, schema, current, outcome, known, merges⟩ :=
      merges_of_isNewest traced covers copies isNewest
    obtain ⟨handler, handled, rfl⟩ := Option.map_eq_some_iff.1 known
    refine ⟨handler, record, handled, found, fun stored among => ⟨fun same => ?_, ?_⟩,
      merges.lastSyncedAt_eq, merges.isDeleted_eq, merges.resolve_none⟩
    · obtain ⟨key, there⟩ := SortedMap.mem_values_iff.1 among
      rw [← traced.key_eq there, same, found] at there
      exact (Option.some.inj there).symm
    · rintro rfl
      exact merges.key_eq
  · cases found : SortedMap.get? (crew.records store) key with
    | none => rfl
    | some record =>
      obtain ⟨m, received, own, -⟩ := traced key record found
      exact absurd own (unheard m received)

section Samples

open Fixtures

/-- Four messages of a company, one of them twice, all load before any writes, and the deletion, which
is the newest, writes in between. Another company comes and goes meanwhile. -/
def splitWrites : List (Move Store) :=
  [ .receive 0 (companyCreated "c-1" "Acme" (stamp 1)),
    .receive 1 (companyCreated "c-1" "Acme" (stamp 1)),
    .receive 2 (acmeUpdated (SortedMap.ofPairs [("name", .str "Acme Ltd")]) (stamp 2)),
    .receive 3 (acmeDeleted ∅ (stamp 3)) ] ++
    steps 0 2 ++ steps 1 2 ++ steps 2 2 ++ steps 3 2 ++
    [.receive 4 (companyCreated "c-2" "Other" (stamp 1))] ++
    steps 2 1 ++ steps 3 1 ++ steps 0 1 ++ steps 4 4 ++ steps 1 2 ++ steps 0 1 ++ steps 2 1 ++
    steps 3 1

theorem newest_wins_splitWrites :
    (service.OnStore id ∧ (∀ move ∈ splitWrites, Quiet id move) ∧
      (∀ m ∈ (run service splitWrites (opened {})).messages, service.registry.TakesFreely m) ∧
      (run service splitWrites (opened {})).StampsTell ∧
      (run service splitWrites (opened {})).Finished) ∧
    ∃ record, SortedMap.get? ((run service splitWrites (opened {})).records id) acme = some record ∧
      record.lastSyncedAt = stamp 3 ∧ record.isDeleted = true := by
  have quiet : ∀ move ∈ splitWrites, Quiet id move := by
    simp [splitWrites, steps, Move.Within, or_imp, forall_and]
  have messages : (run service splitWrites (opened {})).messages =
      [ companyCreated "c-1" "Acme" (stamp 1), companyCreated "c-1" "Acme" (stamp 1),
        acmeUpdated (SortedMap.ofPairs [("name", .str "Acme Ltd")]) (stamp 2),
        acmeDeleted ∅ (stamp 3), companyCreated "c-2" "Other" (stamp 1) ] := by rfl
  have taken : ∀ m ∈ (run service splitWrites (opened {})).messages,
      service.registry.TakesFreely m := by
    simp only [messages, List.forall_mem_cons]
    exact ⟨⟨companies, rfl, rfl, rfl⟩, ⟨companies, rfl, rfl, rfl⟩, ⟨companies, rfl, rfl, rfl⟩,
      ⟨companies, rfl, rfl, rfl⟩, ⟨companies, rfl, rfl, rfl⟩, by simp⟩
  have copies : (run service splitWrites (opened {})).StampsTell := by decide
  have finished : (run service splitWrites (opened {})).Finished := by decide
  have isNewest : (run service splitWrites (opened {})).IsNewest (acmeDeleted ∅ (stamp 3)) := by
    decide
  obtain ⟨handler, record, -, found, -, stamped, deleted, -⟩ :=
    (newest_wins service_onStore rfl quiet rfl taken copies finished).2.1 _ isNewest
  exact ⟨⟨service_onStore, quiet, taken, copies, finished⟩, record, found, stamped, deleted⟩

end Samples

end Crew

end Replica

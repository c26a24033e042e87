import Replica.Proofs.Convergence
/-! Writes that are told to fail. Each failure is met by one dispatch, which then gives the error it was told;
all other dispatches of messages taken freely end as if nothing had failed. What they leave behind is
determined by the messages alone, but for the fields of an entity deleted last. -/
namespace Replica

namespace Dispatch

variable {σ : Type} {c : Consumer σ} {store : σ → Store}

/-- The dispatch gives an error. -/
def isFailed (d : Dispatch) : Bool := d.verdict?.any fun result => !result.isOk

/-- The dispatch does not wait, and gives nothing but that its message was merged or that its write was told to
fail. -/
def Steady (d : Dispatch) : Prop :=
  ¬ d.phase.IsWaiting ∧
    ∀ result, d.verdict? = some result →
      result = .error Store.injectedFailure ∨ ∃ outcome, result = .ok outcome ∧ outcome.state = .applied

theorem verdict?_of_failed {d : Dispatch} (phase : d.phase = .closing (.failed Store.injectedFailure)) :
    d.verdict? = some (.error Store.injectedFailure) := by
  simp [verdict?, phase, Ending.result, Store.injectedFailure, SyncError.isRetryable]

section Step

variable (on : c.OnStore store) (now : Instant) (desk : Desk σ) {d : Dispatch}
  (taken : c.registry.TakesFreely d.message) (fits : d.phase.Fits c.registry d.message)

include on taken fits

theorem steady_step (steady : d.Steady) : (d.step c now desk).2.Steady := by
  refine ⟨(step_of_not_waits taken.not_waits steady.1 now desk).1, fun result given => ?_⟩
  cases decided : d.verdict? with
  | some before =>
    have still := (step_of_verdict? decided c now desk).1
    exact steady.2 result (decided.trans (still.symm.trans given))
  | none =>
    cases proceeds_step on now desk taken fits steady.1 decided with
    | on _ _ open_ => simp [open_] at given
    | merged _ phase merged =>
      exact .inr ⟨_, by simpa [verdict?, phase, Ending.result, eq_comm] using given, merged⟩
    | failed _ phase =>
      rw [verdict?_of_failed phase] at given
      exact .inl (Option.some.inj given).symm

/-- A failure told is met by a dispatch, which gives it from then on. -/
theorem failures_step (going : ¬ d.phase.IsWaiting) :
    (store (d.step c now desk).1.store).failingWrites + (d.step c now desk).2.isFailed.toNat =
      (store desk.store).failingWrites + d.isFailed.toNat := by
  unfold isFailed
  cases decided : d.verdict? with
  | some result =>
    obtain ⟨still, alone⟩ := step_of_verdict? decided c now desk
    rw [still, alone]
  | none =>
    cases proceeds_step on now desk taken fits going decided with
    | on same _ open_ => rw [same, open_]
    | merged same phase _ => simp [same, verdict?, phase, Ending.result, Except.isOk, Except.toBool]
    | failed told phase => simp [told, verdict?_of_failed phase, Except.isOk, Except.toBool]

end Step

theorem kept_steady (on : c.OnStore store) :
    Crew.Kept c (fun _ => True) fun _ d =>
      d.phase.Fits c.registry d.message ∧ (c.registry.TakesFreely d.message → d.Steady) where
  sound_step _ _ _ _ _ := trivial
  arrives _ _ _ := ⟨trivial, fun _ => ⟨id, fun result given => by cases given⟩⟩
  own now desk d _ holds := by
    refine ⟨(kept_fits c).own now desk d trivial holds.1, fun taken => ?_⟩
    rw [message_step] at taken
    exact steady_step on now desk taken holds.1 (holds.2 taken)
  other _ _ _ _ _ holds _ := holds

end Dispatch

/-! ### What the messages determine -/

namespace Records

/-- The records that messages leave behind where there were others at first: each was there or is the merge of
a message, none is older than before, and all messages are covered. -/
structure Reflect (registry : Registry) (messages : List Message) (first records : Records) : Prop where
  stems : ∀ key record, SortedMap.get? records key = some record →
    SortedMap.get? first key = some record ∨ ∃ m ∈ messages, m.key = key ∧ ∃ schema current outcome,
      registry.schemaFor? m = some schema ∧ Resolution.Merges m current schema record outcome
  advances : Advances first records
  covers : ∀ m ∈ messages, Covers records m

/-- No message of the entity has a greater stamp. -/
def IsNewest (messages : List Message) (m : Message) : Prop :=
  m ∈ messages ∧ ∀ other ∈ messages, other.key = m.key → other.emittedAt ≤ m.emittedAt

variable {registry : Registry} {messages : List Message} {first records others : Records}
  {key : EntityKey} {record other : Record}

/-- How often and in which order messages were sent does not matter. -/
theorem Reflect.congr {same : List Message} (reflect : Reflect registry same first records)
    (members : ∀ m, m ∈ same ↔ m ∈ messages) : Reflect registry messages first records where
  stems key record found := by
    simpa only [members] using reflect.stems key record found
  advances := reflect.advances
  covers m sent := reflect.covers m ((members m).2 sent)

theorem Reflect.le (reflect : Reflect registry messages first records)
    (others_ : Reflect registry messages first others) (found : SortedMap.get? records key = some record) :
    ∃ other, SortedMap.get? others key = some other ∧ record.lastSyncedAt ≤ other.lastSyncedAt := by
  rcases reflect.stems key record found with old | ⟨m, sent, rfl, schema, current, outcome, -, merges⟩
  · obtain ⟨later, there, same | newer⟩ := others_.advances key record old
    · exact ⟨later, there, same ▸ Stamp.le_refl _⟩
    · exact ⟨later, there, Stamp.le_of_lt newer⟩
  · rw [merges.lastSyncedAt_eq]
    exact others_.covers m sent

/-- A record that is still as it was at first is the same in both. -/
theorem Reflect.eq_of_first (others_ : Reflect registry messages first others)
    (old : SortedMap.get? first key = some record) (there : SortedMap.get? others key = some other)
    (stamps : record.lastSyncedAt = other.lastSyncedAt) : record = other := by
  obtain ⟨later, found, same | newer⟩ := others_.advances key record old
  · obtain rfl := Option.some.inj (found.symm.trans there)
    exact same.symm
  · obtain rfl := Option.some.inj (found.symm.trans there)
    rw [stamps] at newer
    exact absurd (Stamp.le_refl _) (Stamp.not_le.2 newer)

/-- Two records that messages leave behind for one entity have the same stamp and the same deletion mark, and
unless the newest message deletes the entity, they are the same. -/
theorem Reflect.agree (reflect : Reflect registry messages first records)
    (others_ : Reflect registry messages first others)
    (copies : ∀ a ∈ messages, ∀ b ∈ messages, a.key = b.key → a.emittedAt = b.emittedAt → a = b)
    (found : SortedMap.get? records key = some record) (there : SortedMap.get? others key = some other) :
    record.lastSyncedAt = other.lastSyncedAt ∧ record.isDeleted = other.isDeleted ∧
      (record = other ∨
        ∃ newest, IsNewest messages newest ∧ newest.key = key ∧ newest.action.isDeletion = true) := by
  have stamps : record.lastSyncedAt = other.lastSyncedAt := by
    obtain ⟨_, same, early⟩ := reflect.le others_ found
    obtain ⟨_, equal, late⟩ := others_.le reflect there
    obtain rfl := Option.some.inj (same.symm.trans there)
    obtain rfl := Option.some.inj (equal.symm.trans found)
    exact Stamp.le_antisymm early late
  rcases reflect.stems key record found with old | ⟨m, sent, rfl, schema, current, outcome, known, merges⟩
  · obtain rfl := others_.eq_of_first old there stamps
    exact ⟨rfl, rfl, .inl rfl⟩
  rcases others_.stems m.key other there with old | ⟨n, among, own, _, _, _, same, also⟩
  · obtain rfl := reflect.eq_of_first old found stamps.symm
    exact ⟨rfl, rfl, .inl rfl⟩
  -- both stem from a message with the one stamp, so from the same
  rw [merges.lastSyncedAt_eq, also.lastSyncedAt_eq] at stamps
  obtain rfl := copies m sent n among own.symm stamps
  obtain rfl := Option.some.inj (known.symm.trans same)
  refine ⟨merges.lastSyncedAt_eq.trans also.lastSyncedAt_eq.symm,
    merges.isDeleted_eq.trans also.isDeleted_eq.symm, ?_⟩
  cases deletion : m.action.isDeletion with
  | true =>
    refine .inr ⟨m, ⟨sent, fun later received its => ?_⟩, rfl, deletion⟩
    obtain ⟨covering, held, asNew⟩ := reflect.covers later received
    rw [its, found] at held
    obtain rfl := Option.some.inj held
    exact merges.lastSyncedAt_eq ▸ asNew
  | false =>
    have equal := (merges.resolve_none deletion).symm.trans (also.resolve_none deletion)
    exact .inl (Resolution.write.inj (Except.ok.inj equal)).1

/-- So each entity has a record in both or in neither, and the records agree. -/
theorem Reflect.get?_agree (reflect : Reflect registry messages first records)
    (others_ : Reflect registry messages first others)
    (copies : ∀ a ∈ messages, ∀ b ∈ messages, a.key = b.key → a.emittedAt = b.emittedAt → a = b)
    (key : EntityKey) :
    (SortedMap.get? records key).map (·.lastSyncedAt) = (SortedMap.get? others key).map (·.lastSyncedAt) ∧
      (SortedMap.get? records key).map (·.isDeleted) = (SortedMap.get? others key).map (·.isDeleted) ∧
      (SortedMap.get? records key = SortedMap.get? others key ∨
        ∃ newest, IsNewest messages newest ∧ newest.key = key ∧ newest.action.isDeletion = true) := by
  cases found : SortedMap.get? records key with
  | none =>
    have none_ : SortedMap.get? others key = none := by
      cases there : SortedMap.get? others key with
      | none => rfl
      | some other =>
        obtain ⟨record, same, -⟩ := others_.le reflect there
        simp [found] at same
    simp [none_]
  | some record =>
    obtain ⟨other, there, -⟩ := reflect.le others_ found
    rw [there]
    obtain ⟨stamps, marks, same | deletion⟩ := reflect.agree others_ copies found there
    · simp [same]
    · exact ⟨by simp [stamps], by simp [marks], .inr deletion⟩

end Records

end Replica

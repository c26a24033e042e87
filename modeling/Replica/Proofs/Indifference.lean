import Replica.Proofs.Course
import Replica.Proofs.Sample
import Mathlib.Data.List.Forall2
/-! Fields that nobody asked for do not matter. Of a snapshot, a handler looks at the fields that it
keeps, at the deletion mark and at the references. Two messages that differ elsewhere only are alike to
a service: every stage of a dispatch answers them alike, so two runs that differ only in which of the
two is received stay alike move by move, in the store, in the counters and in what every dispatch
gives; only the messages set aside tell them apart. -/
namespace Replica

/-- The fields that a handler looks at: those kept, the deletion mark and the references. -/
def Handler.reads (handler : Handler) : List String :=
  handler.schema.names ++ handler.schema.softDelete.toList ++ handler.requirements.map (·.field)

/-- Two snapshots hold the same in every field that the handler looks at. -/
def Handler.Agree (handler : Handler) (s t : Snapshot) : Prop :=
  ∀ name ∈ handler.reads, s.get? name = t.get? name

instance (handler : Handler) (s t : Snapshot) : Decidable (handler.Agree s t) :=
  inferInstanceAs (Decidable (∀ name ∈ handler.reads, _))

namespace Handler.Agree

variable {handler : Handler} {s t : Snapshot}

/-! ### What agreeing snapshots have in common -/

theorem get?_kept (agree : handler.Agree s t) {name : String} (kept : name ∈ handler.schema.names) :
    s.get? name = t.get? name :=
  agree name (by simp [reads, kept])

theorem get?_softDelete (agree : handler.Agree s t) {name : String}
    (mark : handler.schema.softDelete = some name) : s.get? name = t.get? name :=
  agree name (by simp [reads, mark])

theorem get?_field (agree : handler.Agree s t) {r : Requirement} (asked : r ∈ handler.requirements) :
    s.get? r.field = t.get? r.field :=
  agree r.field (List.mem_append_right _ (List.mem_map.2 ⟨r, asked, rfl⟩))

theorem project_eq (agree : handler.Agree s t) :
    handler.schema.project s = handler.schema.project t := by
  apply SortedMap.ext_get?
  intro name
  rw [Schema.project, Schema.project, Snapshot.get?_project, Snapshot.get?_project]
  split
  · exact agree.get?_kept ‹_›
  · rfl

theorem isSoftDeleted_eq (agree : handler.Agree s t) :
    handler.schema.isSoftDeleted s = handler.schema.isSoftDeleted t := by
  unfold Schema.isSoftDeleted
  cases mark : handler.schema.softDelete with
  | none => rfl
  | some name => simp only [agree.get?_softDelete mark]

theorem checkMark_eq (agree : handler.Agree s t) :
    handler.schema.checkMark s = handler.schema.checkMark t := by
  unfold Schema.checkMark
  cases mark : handler.schema.softDelete with
  | none => rfl
  | some name => simp only [agree.get?_softDelete mark]

/-- The check finds the same faults, in the same words. -/
theorem check_eq (agree : handler.Agree s t) (requireFields : Bool) :
    handler.schema.check s requireFields = handler.schema.check t requireFields := by
  have entries : ∀ spec ∈ handler.schema.fields.filter fun spec => requireFields && spec.required,
      Schema.checkField s spec = Schema.checkField t spec := by
    intro spec listed
    have kept : spec.name ∈ handler.schema.names :=
      List.mem_map.2 ⟨spec, (List.mem_filter.1 listed).1, rfl⟩
    rw [Schema.checkField, Schema.checkField, Snapshot.has, Snapshot.has, agree.get?_kept kept]
  rw [Schema.check, Schema.check, List.map_congr_left entries, agree.checkMark_eq]

theorem references_eq (agree : handler.Agree s t) :
    Requirement.references handler.requirements s = Requirement.references handler.requirements t := by
  have each : ∀ r ∈ handler.requirements, r.reference s = r.reference t := by
    intro r asked
    rw [Requirement.reference, Requirement.reference, agree.get?_field asked]
  rw [Requirement.references, Requirement.references, List.map_congr_left each]

end Handler.Agree

/-! ### Messages that a service cannot tell apart -/

/-- To the service the messages are alike: the same, or one with another snapshot in which everything is
as it was that their handler looks at, and the handler takes every message of the kind. -/
inductive Registry.Confuses (registry : Registry) : Message → Message → Prop where
  | same (m : Message) : Confuses registry m m
  | unlisted {m : Message} {other : Snapshot} {handler : Handler}
      (registered : SortedMap.get? registry m.entityKind = some handler)
      (unfiltered : ∀ x, handler.accepts x = true) (agree : handler.Agree m.snapshot other) :
      Confuses registry m { m with snapshot := other }

namespace Registry.Confuses

variable {registry : Registry} {a b : Message}

theorem key_eq (alike : registry.Confuses a b) : a.key = b.key := by
  cases alike <;> rfl

theorem isForceSync_eq (alike : registry.Confuses a b) : a.isForceSync = b.isForceSync := by
  cases alike <;> rfl

theorem handlerFor?_eq (alike : registry.Confuses a b) :
    registry.handlerFor? a = registry.handlerFor? b := by
  cases alike with
  | same => rfl
  | unlisted registered unfiltered agree =>
    simp [handlerFor?, registered, Option.filter, unfiltered]

/-- What a message has to wait for, or why it is refused. -/
theorem dependencies_eq (alike : registry.Confuses a b) {handler : Handler}
    (goes : registry.handlerFor? a = some handler) :
    Dispatch.dependencies handler a = Dispatch.dependencies handler b := by
  cases alike with
  | same => rfl
  | unlisted registered unfiltered agree =>
    rw [handlerFor?, registered] at goes
    obtain rfl := Option.some.inj (Option.filter_eq_some_iff.1 goes).1
    simp only [Dispatch.dependencies, agree.isSoftDeleted_eq, agree.check_eq, agree.references_eq]
    rfl

theorem receive_eq (alike : registry.Confuses a b) (budget : WaitBudget) (now : Instant) :
    Dispatch.receive registry budget now a = Dispatch.receive registry budget now b := by
  unfold Dispatch.receive
  rw [← alike.handlerFor?_eq]
  cases goes : registry.handlerFor? a with
  | none => rfl
  | some handler => simp only [alike.dependencies_eq goes, alike.isForceSync_eq]

/-- The merge, over any record. -/
theorem resolve_eq (alike : registry.Confuses a b) {schema : Schema}
    (known : registry.schemaFor? a = some schema) (current : Option Record) :
    Resolution.resolve a current schema = Resolution.resolve b current schema := by
  cases alike with
  | same => rfl
  | @unlisted _ handler registered unfiltered agree =>
    have goes : registry.handlerFor? a = some handler := by
      simp [handlerFor?, registered, Option.filter, unfiltered]
    rw [schemaFor?, goes] at known
    obtain rfl := Option.some.inj known
    simp only [Resolution.resolve, Resolution.written, Resolution.deletedAfter, Resolution.tombstoneOf,
      agree.check_eq, agree.project_eq, agree.isSoftDeleted_eq]
    rfl

theorem onLoad_eq (alike : registry.Confuses a b) {schema : Schema}
    (known : registry.schemaFor? a = some schema) (answer : Except SyncError (Option Record)) :
    Dispatch.onLoad schema a answer = Dispatch.onLoad schema b answer := by
  unfold Dispatch.onLoad
  cases answer with
  | error error => rfl
  | ok current => simp only [alike.resolve_eq known]

end Registry.Confuses

/-- Related options are both empty or both not. -/
theorem cases_of_rel {α β : Type} {r : α → β → Prop} {a : Option α} {b : Option β}
    (related : Option.Rel r a b) :
    a = none ∧ b = none ∨ ∃ x y, a = some x ∧ b = some y ∧ r x y := by
  cases related with
  | none => exact .inl ⟨rfl, rfl⟩
  | some related => exact .inr ⟨_, _, rfl, rfl, related⟩

/-- Two letters say the same, of messages that are alike. -/
structure DeadLetter.Indistinct (registry : Registry) (a b : DeadLetter) : Prop where
  message : registry.Confuses a.message b.message
  reason : a.reason = b.reason
  error : a.error = b.error

/-- Two desks have the same store and the same counters, and letters that say the same. -/
structure Desk.Indistinct {σ : Type} (registry : Registry) (desk other : Desk σ) : Prop where
  store : desk.store = other.store
  stats : desk.stats = other.stats
  letters : List.Forall₂ (DeadLetter.Indistinct registry) desk.letters other.letters

/-- A letter, but for the snapshot of its message. -/
def DeadLetter.withoutSnapshot (letter : DeadLetter) : DeadLetter :=
  { letter with message := { letter.message with snapshot := ∅ } }

theorem DeadLetter.Indistinct.withoutSnapshot_eq {registry : Registry} {a b : DeadLetter}
    (alike : a.Indistinct registry b) : a.withoutSnapshot = b.withoutSnapshot := by
  obtain ⟨m, reason, error⟩ := a
  obtain ⟨other, _, _⟩ := b
  obtain ⟨messages, rfl, rfl⟩ := alike
  cases messages <;> rfl

theorem DeadLetter.map_withoutSnapshot_eq {registry : Registry} {letters others : List DeadLetter}
    (alike : List.Forall₂ (Indistinct registry) letters others) :
    letters.map withoutSnapshot = others.map withoutSnapshot := by
  induction alike with
  | nil => rfl
  | cons first _ ih => rw [List.map_cons, List.map_cons, first.withoutSnapshot_eq, ih]

namespace Ending

variable {registry : Registry} {a b : Message}

theorem timeoutError_eq (alike : registry.Confuses a b) (missing : EntityKey) (waited : Duration) :
    timeoutError a missing waited = timeoutError b missing waited := by
  simp [timeoutError, alike.key_eq]

theorem result_eq (alike : registry.Confuses a b) (ending : Ending) :
    ending.result a = ending.result b := by
  cases ending <;> simp [result, alike.isForceSync_eq]

/-- The same is counted, and the same error noted. -/
theorem count_eq (alike : registry.Confuses a b) (ending : Ending) (stats : Stats) :
    ending.count a stats = ending.count b stats := by
  cases ending with
  | plain outcome => cases outcome <;> rfl
  | timedOut missing waited => simp only [count, alike.isForceSync_eq, timeoutError_eq alike]
  | failed error => rfl

theorem letter?_indistinct (alike : registry.Confuses a b) (ending : Ending) :
    Option.Rel (DeadLetter.Indistinct registry) (ending.letter? a) (ending.letter? b) := by
  cases ending with
  | plain outcome => exact .none
  | timedOut missing waited =>
    simp only [letter?, ← alike.isForceSync_eq, ← timeoutError_eq alike]
    split
    · exact .some ⟨alike, rfl, rfl⟩
    · exact .none
  | failed error =>
    simp only [letter?]
    split
    · exact .none
    · exact .some ⟨alike, rfl, rfl⟩

end Ending

namespace Dispatch

variable {σ : Type} {c : Consumer σ} {registry : Registry} {a b : Message}

/-! ### Dispatches of such messages -/

/-- Two dispatches are equally far with messages that are alike: in the same phase, about to set aside
letters that say the same at most. -/
inductive Indistinct (registry : Registry) : Dispatch → Dispatch → Prop where
  | within {a b : Message} {phase : Phase} (messages : registry.Confuses a b)
      (fits : phase.Fits registry a) : Indistinct registry ⟨a, phase⟩ ⟨b, phase⟩
  | shelving {a b : Message} {letter other : DeadLetter} {result : DispatchResult}
      (messages : registry.Confuses a b) (letters : letter.Indistinct registry other) :
      Indistinct registry ⟨a, .shelving letter result⟩ ⟨b, .shelving other result⟩

/-- Nothing that is seen of a dispatch from outside tells the two apart. -/
theorem Indistinct.seen {d e : Dispatch} (alike : Indistinct registry d e) (now : Instant) :
    d.result? = e.result? ∧ d.ready now = e.ready now ∧ d.wakeAt = e.wakeAt := by
  cases alike <;> exact ⟨rfl, rfl, rfl⟩

/-- Setting a letter aside leaves the desks alike. -/
theorem indistinct_of_shelving {desk other : Desk σ} (desks : desk.Indistinct registry other)
    {letter twin : DeadLetter} (letters : letter.Indistinct registry twin) (keeps : Bool) :
    (if keeps then desk.shelve letter else desk).Indistinct registry
      (if keeps then other.shelve twin else other) := by
  cases keeps with
  | false => exact desks
  | true => exact ⟨desks.store, desks.stats, List.rel_append desks.letters (.cons letters .nil)⟩

/-- Two dispatches in the same phase stay alike, and so do their desks. -/
theorem indistinct_step_within (messages : c.registry.Confuses a b) {phase : Phase}
    (fits : phase.Fits c.registry a) {desk other : Desk σ} (desks : desk.Indistinct c.registry other)
    (now : Instant) :
    (step c now desk ⟨a, phase⟩).1.Indistinct c.registry (step c now other ⟨b, phase⟩).1 ∧
      Indistinct c.registry (step c now desk ⟨a, phase⟩).2 (step c now other ⟨b, phase⟩).2 := by
  obtain ⟨store, letters, stats⟩ := desk
  obtain ⟨_, others, _⟩ := other
  obtain ⟨rfl, rfl, said⟩ := desks
  -- the schema stays that of the handler
  have still := (kept_fits c).own now ⟨store, letters, stats⟩ ⟨a, phase⟩ trivial fits
  rw [message_step] at still
  cases phase with
  | arrived =>
    refine ⟨⟨rfl, rfl, said⟩, ?_⟩
    simp only [step, ← messages.receive_eq] at still ⊢
    exact .within messages still
  | probing w => exact ⟨⟨rfl, rfl, said⟩, .within messages still⟩
  | pausing until_ w => exact ⟨⟨rfl, rfl, said⟩, .within messages still⟩
  | loading schema =>
    refine ⟨⟨?_, rfl, said⟩, ?_⟩
    · simp only [step, messages.key_eq]
    · simp only [step, ← messages.key_eq, ← messages.onLoad_eq fits] at still ⊢
      exact .within messages still
  | writing record outcome => exact ⟨⟨rfl, rfl, said⟩, .within messages still⟩
  | closing ending =>
    refine ⟨⟨rfl, Ending.count_eq messages ending stats, said⟩, ?_⟩
    simp only [step, ← Ending.result_eq messages]
    rcases cases_of_rel (Ending.letter?_indistinct messages ending) with ⟨first, second⟩ |
      ⟨letter, twin, first, second, letters⟩
    · simp only [first, second]
      exact .within messages trivial
    · simp only [first, second]
      exact .shelving messages letters
  | shelving letter result =>
    have desks : Desk.Indistinct c.registry ⟨store, letters, stats⟩ ⟨store, others, stats⟩ :=
      ⟨rfl, rfl, said⟩
    exact ⟨indistinct_of_shelving desks ⟨.same _, rfl, rfl⟩ _, .within messages trivial⟩
  | done result => exact ⟨⟨rfl, rfl, said⟩, .within messages still⟩
  | beyondClock => exact ⟨⟨rfl, rfl, said⟩, .within messages still⟩

theorem indistinct_step {d e : Dispatch} (alike : Indistinct c.registry d e) {desk other : Desk σ}
    (desks : desk.Indistinct c.registry other) (now : Instant) :
    (d.step c now desk).1.Indistinct c.registry (e.step c now other).1 ∧
      Indistinct c.registry (d.step c now desk).2 (e.step c now other).2 := by
  cases alike with
  | within messages fits => exact indistinct_step_within messages fits desks now
  | shelving messages letters =>
    exact ⟨indistinct_of_shelving desks letters _, .within messages trivial⟩

end Dispatch

namespace Crew

variable {σ : Type} {c : Consumer σ}

/-! ### Runs that receive such messages -/

/-- The same move, but that a message received may be another one like it. -/
inductive Move.Indistinct (registry : Registry) : Move σ → Move σ → Prop where
  | same (move : Move σ) : Move.Indistinct registry move move
  | receive (id : Nat) {a b : Message} (messages : registry.Confuses a b) :
      Move.Indistinct registry (.receive id a) (.receive id b)

/-- Two crews at the same time, with desks and dispatches that are alike. -/
structure Indistinct (registry : Registry) (crew other : Crew σ) : Prop where
  now : crew.now = other.now
  desk : crew.desk.Indistinct registry other.desk
  dispatches : ∀ id, Option.Rel (Dispatch.Indistinct registry) (crew.dispatches.get? id)
    (other.dispatches.get? id)

/-- Crews stay alike as a dispatch of the same number is put into both. -/
theorem Indistinct.insert {crew other : Crew σ} {registry : Registry} (alike : Indistinct registry crew other)
    {desk twin : Desk σ} (desks : desk.Indistinct registry twin) {d e : Dispatch}
    (dispatches : d.Indistinct registry e) (id : Nat) :
    Indistinct registry { crew with desk, dispatches := crew.dispatches.insert id d }
      { other with desk := twin, dispatches := other.dispatches.insert id e } where
  now := alike.now
  desk := desks
  dispatches n := by
    rw [SortedMap.get?_insert, SortedMap.get?_insert]
    split
    · exact .some dispatches
    · exact alike.dispatches n

theorem Indistinct.receive {crew other : Crew σ} (alike : Indistinct c.registry crew other) (id : Nat)
    {a b : Message} (messages : c.registry.Confuses a b) :
    Indistinct c.registry (next c crew (.receive id a)) (next c other (.receive id b)) := by
  rcases cases_of_rel (alike.dispatches id) with ⟨free, too⟩ | ⟨d, e, found, there, -⟩
  · have arrived : Dispatch.Indistinct c.registry { message := a } { message := b } :=
      .within messages trivial
    simpa only [next, free, too] using alike.insert alike.desk arrived id
  · simpa only [next, found, there] using alike

theorem Indistinct.step {crew other : Crew σ} (alike : Indistinct c.registry crew other) (id : Nat) :
    Indistinct c.registry (next c crew (.step id)) (next c other (.step id)) := by
  rcases cases_of_rel (alike.dispatches id) with ⟨free, too⟩ | ⟨d, e, found, there, dispatches⟩
  · simpa only [next, free, too] using alike
  · obtain ⟨-, ready, -⟩ := dispatches.seen crew.now
    obtain ⟨desks, made⟩ := Dispatch.indistinct_step dispatches alike.desk crew.now
    simp only [next, found, there, ← alike.now, ← ready]
    split
    · exact alike.now ▸ alike.insert desks made id
    · exact alike

/-- Moves that are alike keep crews alike. -/
theorem Indistinct.next {crew other : Crew σ} (alike : Indistinct c.registry crew other) {move twin : Move σ}
    (moves : Move.Indistinct c.registry move twin) :
    Indistinct c.registry (next c crew move) (next c other twin) := by
  cases moves with
  | receive id messages => exact alike.receive id messages
  | same =>
    cases move with
    | receive id m => exact alike.receive id (.same m)
    | step id => exact alike.step id
    | pass time => exact ⟨congrArg (· + time) alike.now, alike.desk, alike.dispatches⟩
    | poke f =>
      exact ⟨alike.now, ⟨congrArg f alike.desk.store, alike.desk.stats, alike.desk.letters⟩,
        alike.dispatches⟩

theorem indistinct_run {moves others : List (Move σ)}
    (alike : List.Forall₂ (Move.Indistinct c.registry) moves others) (s : σ) :
    Indistinct c.registry (run c moves (opened s)) (run c others (opened s)) := by
  suffices ∀ crew other, Indistinct c.registry crew other →
      Indistinct c.registry (run c moves crew) (run c others other) from
    this _ _ ⟨rfl, ⟨rfl, rfl, .nil⟩, fun _ => .none⟩
  induction alike with
  | nil => exact fun _ _ still => still
  | cons first _ ih => exact fun _ _ still => ih _ _ (still.next first)

/-- Two runs of a consumer on surroundings of any kind, from any state of them, differ only in the
snapshot of one message, and only in fields that the handler of its kind, which takes every message,
does not look at. Then after any further moves it is the same time, the surroundings are the same, and
with them every record, and so are all counters and the last error; the letters differ in a snapshot at
most; and every dispatch is ready, wakes up and ends with the same result in both, so whoever makes the
moves as the dispatches let him makes the same. -/
theorem unlisted_fields_indifferent {handler : Handler} {m : Message} {other : Snapshot}
    (registered : SortedMap.get? c.registry m.entityKind = some handler)
    (unfiltered : ∀ x, handler.accepts x = true)
    (agree : ∀ name ∈ handler.reads, m.snapshot.get? name = other.get? name)
    (s : σ) (before after : List (Move σ)) (id : Nat) :
    let first := run c (before ++ .receive id m :: after) (opened s)
    let second := run c (before ++ .receive id { m with snapshot := other } :: after) (opened s)
    first.now = second.now ∧ first.desk.store = second.desk.store ∧
      first.desk.stats = second.desk.stats ∧
      first.desk.letters.map DeadLetter.withoutSnapshot =
        second.desk.letters.map DeadLetter.withoutSnapshot ∧
      ∀ n, ((first.dispatches.get? n).map fun d => (d.result?, d.ready first.now, d.wakeAt)) =
        ((second.dispatches.get? n).map fun d => (d.result?, d.ready second.now, d.wakeAt)) := by
  intro first second
  have same (moves : List (Move σ)) : List.Forall₂ (Move.Indistinct c.registry) moves moves :=
    List.forall₂_same.2 fun move _ => .same move
  have alike : Indistinct c.registry first second :=
    indistinct_run (List.rel_append (same before)
      (.cons (.receive id (.unlisted registered unfiltered agree)) (same after))) s
  refine ⟨alike.now, alike.desk.store, alike.desk.stats, ?_, fun n => ?_⟩
  · exact DeadLetter.map_withoutSnapshot_eq alike.desk.letters
  · rw [← alike.now]
    rcases cases_of_rel (alike.dispatches n) with ⟨free, too⟩ | ⟨d, e, found, there, dispatches⟩
    · simp [free, too]
    · obtain ⟨given, ready, wakes⟩ := dispatches.seen first.now
      simp [found, there, given, ready, wakes]

section Samples

open Fixtures

/-- An employee of the company. -/
def ada : Message := employeeCreated "e-1" "Ada" "c-1" (stamp 1)

/-- The same, with a room that no handler asks for. -/
def adaInRoom : Snapshot := SortedMap.insert ada.snapshot "room" (.str "12")

/-- The employee waits, a change without a name is set aside, the company comes, and once the employee is
written, a deletion that tells nothing keeps the fields. -/
def hired : List (Move Store) :=
  steps 0 2 ++
    [.receive 1 { ada with snapshot := ∅, emittedAt := stamp 2 }] ++ steps 1 3 ++
    [.receive 2 (companyCreated "c-1" "Acme" (stamp 1))] ++ steps 2 4 ++
    [.pass (Duration.seconds 1)] ++ steps 0 5 ++
    [.receive 3 { ada with action := .deleted, snapshot := ∅, emittedAt := stamp 3 }] ++ steps 3 4

theorem unlisted_fields_indifferent_hired :
    (SortedMap.get? service.registry ada.entityKind = some employees ∧
      (∀ x, employees.accepts x = true) ∧
      ∀ name ∈ employees.reads, ada.snapshot.get? name = adaInRoom.get? name) ∧
    ada.snapshot ≠ adaInRoom ∧
    ((run service (.receive 0 ada :: hired) (opened {})).dispatches.get? 0).bind (·.result?) =
      some (.ok (.applied .inserted)) ∧
    (run service (.receive 0 ada :: hired) (opened {})).desk.store =
      (run service (.receive 0 { ada with snapshot := adaInRoom } :: hired) (opened {})).desk.store := by
  have registered : SortedMap.get? service.registry ada.entityKind = some employees := rfl
  have unfiltered : ∀ x, employees.accepts x = true := fun _ => rfl
  have agree : ∀ name ∈ employees.reads, ada.snapshot.get? name = adaInRoom.get? name := by decide
  obtain ⟨-, same, -⟩ := unlisted_fields_indifferent registered unfiltered agree {} [] hired 0
  refine ⟨⟨registered, unfiltered, agree⟩, by decide, by decide +kernel, ?_⟩
  simpa only [List.nil_append] using same

end Samples

end Crew

end Replica

import Replica.Proofs.Retention
import Replica.Proofs.Sample
/-! Messages that are delivered again. Once the record of its entity is as new as a message, no dispatch
of the message writes any more, whatever else goes on. Unless it is held up before the merge it is
outdated at once. It may be held up, though: the wait for other entities comes before the record is
looked at, and an entity that was there the first time may be deleted by now. -/
namespace Replica

namespace Consumer

variable {σ : Type}

/-- Looks for the entities, one after another from this state on, find them all. -/
def Finds (c : Consumer σ) : List EntityKey → σ → Prop
  | [], _ => True
  | key :: later, s =>
    (c.backend.probe key s).1 = .ok true ∧ Finds c later (c.backend.probe key s).2

/-- A consumer that looks for entities in its store finds those that are live there. -/
theorem finds_iff {c : Consumer Store} (backend : c.backend = Store.backend) {keys : List EntityKey}
    {s : Store} : c.Finds keys s ↔ ∀ key ∈ keys, s.isLive key = true := by
  have looked (key : EntityKey) : c.backend.probe key s = (.ok (s.isLive key), s) := by
    rw [backend]
    rfl
  induction keys with
  | nil => simp [Finds]
  | cons key later ih => simp [Finds, looked, ih]

/-- Nothing holds the message up before the merge: it has nothing to wait for, or its snapshot passes
the check, each reference is an id, the clock reaches the end of the wait, and looks at this moment find
all entities that it refers to. -/
def LetsThrough (c : Consumer σ) (now : Instant) (s : σ) (handler : Handler) (m : Message) : Prop :=
  Dispatch.dependencies handler m = .ok none ∨
    ∃ keys, Dispatch.dependencies handler m = .ok (some keys) ∧
      (Instant.after? now (c.budget.budgetFor m.isForceSync)).isSome = true ∧ c.Finds keys s

end Consumer

/-! ### Nothing is written any more -/

namespace Dispatch

variable {σ : Type} {c : Consumer σ} {store : σ → Store}

/-- The dispatch does not write, and if it gives that its message was merged, then as outdated. -/
def Idle (d : Dispatch) : Prop :=
  (∀ record outcome, d.phase ≠ .writing record outcome) ∧
    ∀ outcome, d.verdict? = some (.ok outcome) → outcome.state = .applied → outcome = .stale

theorem idle_of_undecided {d : Dispatch} (calm : ∀ record outcome, d.phase ≠ .writing record outcome)
    (open_ : d.verdict? = none) : d.Idle := by
  refine ⟨calm, fun outcome given => ?_⟩
  rw [open_] at given
  cases given

theorem idle_of_closing {d : Dispatch} {ending : Ending} (phase : d.phase = .closing ending)
    (only : ∀ outcome, ending = .plain outcome → outcome.state = .applied → outcome = .stale) :
    d.Idle := by
  refine ⟨by simp [phase], fun outcome given merged => ?_⟩
  simp only [verdict?, phase, Option.some.injEq] at given
  exact only outcome (Ending.eq_plain_of_result given merged) merged

/-- A step of an idle dispatch of a message that is covered leaves it idle, and the store as it is. -/
theorem idle_step (on : c.OnStore store) (now : Instant) (desk : Desk σ) {d : Dispatch}
    (covers : (store desk.store).records.Covers d.message) (idle : d.Idle) :
    (d.step c now desk).2.Idle ∧ store (d.step c now desk).1.store = store desk.store := by
  have made := d.phase_step on now desk
  have left := d.store_step on now desk
  cases phase : d.phase with
  | arrived =>
    simp only [phase] at made left
    refine ⟨?_, left⟩
    rcases receive_cases c.registry c.budget now d.message with ⟨ends, -⟩ |
      ⟨schema, -, ⟨reasons, ends⟩ | goes | ⟨-, goes | ⟨w, goes, -⟩⟩⟩
    · refine idle_of_closing (made.trans ends) fun outcome same merged => ?_
      obtain rfl := Ending.plain.inj same
      cases merged
    · exact idle_of_closing (made.trans ends) (by simp)
    · exact idle_of_undecided (by simp [made, goes]) (by simp [verdict?, made, goes])
    · exact idle_of_undecided (by simp [made, goes]) (by simp [verdict?, made, goes])
    · exact idle_of_undecided (by simp [made, goes]) (by simp [verdict?, made, goes])
  | probing w =>
    simp only [phase] at made left
    refine ⟨?_, left⟩
    rcases onProbe_cases c.budget.backoff now w (c.backend.probe w.key desk.store).1 with
      ⟨error, ends⟩ | goes | ⟨next, goes, -⟩ | ⟨missing, waited, ends⟩ | ⟨until_, next, goes, -⟩
    · exact idle_of_closing (made.trans ends) (by simp)
    · exact idle_of_undecided (by simp [made, goes]) (by simp [verdict?, made, goes])
    · exact idle_of_undecided (by simp [made, goes]) (by simp [verdict?, made, goes])
    · exact idle_of_closing (made.trans ends) (by simp)
    · exact idle_of_undecided (by simp [made, goes]) (by simp [verdict?, made, goes])
  | pausing until_ w =>
    simp only [phase] at made left
    exact ⟨idle_of_undecided (by simp [made]) (by simp [verdict?, made]), left⟩
  | loading schema =>
    simp only [phase] at made left
    refine ⟨?_, left⟩
    rcases onLoad_cases schema d.message ((store desk.store).load d.message.key) with
      ⟨record, outcome, -, merges⟩ | ⟨ends, -⟩ | ⟨reasons, ends, -⟩
    · -- a merge would need a record older than the message, or none
      obtain ⟨there, found, asNew⟩ := covers
      rw [Store.load, found] at merges
      exact absurd asNew (Stamp.not_le.2 (Resolution.merges_some_iff.1 merges).1)
    · refine idle_of_closing (made.trans ends) fun outcome same _ => ?_
      exact (Ending.plain.inj same).symm
    · exact idle_of_closing (made.trans ends) (by simp)
  | writing record outcome => exact absurd phase (idle.1 record outcome)
  | beyondClock =>
    simp only [phase] at made left
    exact ⟨idle_of_undecided (by simp [made]) (by simp [verdict?, made]), left⟩
  | _ =>
    -- what the dispatch gives is decided already
    have settled : d.verdict?.isSome = true := by simp [verdict?, phase]
    obtain ⟨result, decided⟩ := Option.isSome_iff_exists.1 settled
    obtain ⟨still, alone⟩ := step_of_verdict? decided c now desk
    refine ⟨⟨?_, fun outcome given => ?_⟩, congrArg store alone⟩
    · intro record outcome writes
      simp [verdict?, writes] at still
    · exact idle.2 outcome (decided.trans (still.symm.trans given))

end Dispatch

namespace Crew

variable {σ : Type} {c : Consumer σ} {store : σ → Store} {moves : List (Move σ)}

/-- An idle dispatch of a message that is covered is still idle after all later moves, and the message is
still covered. -/
theorem idle_run (on : c.OnStore store) (keeps : ∀ move ∈ moves, KeepsRecords store move)
    {crew : Crew σ} {id : Nat} {m : Message} (covers : (crew.records store).Covers m)
    (idle : ∃ d, crew.dispatches.get? id = some d ∧ d.message = m ∧ d.Idle) :
    ((run c moves crew).records store).Covers m ∧
      ∃ d, (run c moves crew).dispatches.get? id = some d ∧ d.message = m ∧ d.Idle := by
  induction moves generalizing crew with
  | nil => exact ⟨covers, idle⟩
  | cons move rest ih =>
    obtain ⟨first, later⟩ := List.forall_mem_cons.1 keeps
    obtain ⟨d, found, same, calm⟩ := idle
    refine ih later (covers.advance (advances_next on crew first)) ?_
    have own : ∀ e : Dispatch, e.message = m ∧ e.Idle →
        (e.step c crew.now crew.desk).2.message = m ∧ (e.step c crew.now crew.desk).2.Idle := by
      rintro e ⟨rfl, calm⟩
      exact ⟨e.message_step crew.now crew.desk,
        (Dispatch.idle_step on crew.now crew.desk covers calm).1⟩
    exact get?_next_of_get? own move found ⟨same, calm⟩

/-- A step of such a dispatch leaves the store alone. -/
theorem store_next_of_idle (on : c.OnStore store) {crew : Crew σ} {id : Nat} {d : Dispatch}
    (covers : (crew.records store).Covers d.message) (found : crew.dispatches.get? id = some d)
    (idle : d.Idle) : store (next c crew (.step id)).desk.store = store crew.desk.store := by
  by_cases ready : d.ready crew.now = true
  · rw [next_step_of_ready c found ready]
    exact (Dispatch.idle_step on crew.now crew.desk covers idle).2
  · simp [next, found, ready]

/-! ### Outdated at once -/

/-- No time has passed, the store is as it was, and no message has been set aside. -/
def Unmoved (store : σ → Store) (before after : Crew σ) : Prop :=
  after.now = before.now ∧ store after.desk.store = store before.desk.store ∧
    after.desk.letters = before.desk.letters

theorem Unmoved.trans {first second third : Crew σ} (early : Unmoved store first second)
    (late : Unmoved store second third) : Unmoved store first third :=
  ⟨late.1.trans early.1, late.2.1.trans early.2.1, late.2.2.trans early.2.2⟩

/-- The dispatch comes to a phase by its own steps alone, with nothing moved. -/
def Comes (c : Consumer σ) (store : σ → Store) (crew : Crew σ) (id : Nat) (m : Message)
    (phase : Dispatch.Phase) : Prop :=
  ∃ count, (run c (List.replicate count (.step id)) crew).dispatches.get? id = some ⟨m, phase⟩ ∧
    Unmoved store crew (run c (List.replicate count (.step id)) crew)

theorem Comes.of_step {crew : Crew σ} {id : Nat} {m : Message} {phase : Dispatch.Phase}
    (comes : Comes c store (next c crew (.step id)) id m phase)
    (unmoved : Unmoved store crew (next c crew (.step id))) : Comes c store crew id m phase := by
  obtain ⟨count, there, rest⟩ := comes
  exact ⟨count + 1, there, unmoved.trans rest⟩

/-- A dispatch whose looks all find what they look for comes to load its record. The induction is on the
entities still to be looked for; each look may change what the consumer works on, but not the store. -/
theorem comes_of_finds (on : c.OnStore store) {schema : Schema} {since deadline : Instant}
    {keys : List EntityKey} {crew : Crew σ} {id : Nat} {m : Message}
    (found : crew.dispatches.get? id =
      some ⟨m, Dispatch.await schema since deadline crew.now keys⟩)
    (finds : c.Finds keys crew.desk.store) : Comes c store crew id m (.loading schema) := by
  induction keys generalizing crew with
  | nil => exact ⟨0, found, rfl, rfl, rfl⟩
  | cons key later ih =>
    obtain ⟨answered, finds⟩ := finds
    have made := next_step_of_ready c found rfl
    refine Comes.of_step ?_ ⟨?_, ?_, ?_⟩
    · apply ih
      · rw [made, SortedMap.get?_insert_self]
        simp [Dispatch.step, Dispatch.await, answered, Dispatch.onProbe]
      · rw [made]
        exact finds
    · rw [made]
    · rw [made]
      exact on.store_probe key crew.desk.store
    · rw [made]
      rfl

/-- A dispatch that is about to load the record of a covered message ends at once: the message is
outdated. -/
theorem comes_stale (on : c.OnStore store) {schema : Schema} {crew : Crew σ} {id : Nat} {m : Message}
    (found : crew.dispatches.get? id = some ⟨m, .loading schema⟩)
    (covers : (crew.records store).Covers m) : Comes c store crew id m (.done (.ok .stale)) := by
  obtain ⟨record, there, asNew⟩ := covers
  have loaded : Dispatch.onLoad schema m (.ok ((store crew.desk.store).load m.key)) =
      .closing (.plain .stale) := by
    have merged : Resolution.resolve m (some record) schema = .ok (.stale record.lastSyncedAt) :=
      Resolution.resolve_eq_stale_iff.2 ⟨record, rfl, asNew, rfl⟩
    have looked : (store crew.desk.store).load m.key = some record := there
    rw [looked, Dispatch.onLoad, merged]
  have first := next_step_of_ready c found rfl
  have closing : (next c crew (.step id)).dispatches.get? id =
      some ⟨m, .closing (.plain .stale)⟩ := by
    rw [first, SortedMap.get?_insert_self]
    simp [Dispatch.step, on.load, loaded]
  have second := next_step_of_ready c closing rfl
  have done : (next c (next c crew (.step id)) (.step id)).dispatches.get? id =
      some ⟨m, .done (.ok .stale)⟩ := by
    rw [second, SortedMap.get?_insert_self]
    rfl
  refine Comes.of_step (Comes.of_step ⟨0, done, rfl, rfl, rfl⟩ ?_) ?_
  · rw [second]
    exact ⟨rfl, rfl, rfl⟩
  · rw [first]
    refine ⟨rfl, ?_, rfl⟩
    simp [Dispatch.step, on.load]

/-- A message that is received, is covered and is not held up is outdated at once. -/
theorem comes_of_letsThrough (on : c.OnStore store) {crew : Crew σ} {id : Nat} {m : Message}
    {handler : Handler} (found : crew.dispatches.get? id = some { message := m })
    (handled : c.registry.handlerFor? m = some handler)
    (through : c.LetsThrough crew.now crew.desk.store handler m)
    (covers : (crew.records store).Covers m) : Comes c store crew id m (.done (.ok .stale)) := by
  have made := next_step_of_ready c found rfl
  have first : Unmoved store crew (next c crew (.step id)) := by
    rw [made]
    exact ⟨rfl, rfl, rfl⟩
  refine Comes.of_step ?_ first
  have loads : Comes c store (next c crew (.step id)) id m (.loading handler.schema) := by
    rcases through with free | ⟨keys, needed, due, finds⟩
    · refine ⟨0, ?_, rfl, rfl, rfl⟩
      rw [List.replicate_zero, run_nil, made, SortedMap.get?_insert_self]
      simp [Dispatch.step, Dispatch.receive, handled, free]
    · obtain ⟨deadline, due⟩ := Option.isSome_iff_exists.1 due
      have waits : (next c crew (.step id)).dispatches.get? id =
          some ⟨m, Dispatch.await handler.schema crew.now deadline crew.now keys⟩ := by
        rw [made, SortedMap.get?_insert_self]
        simp [Dispatch.step, Dispatch.receive, handled, needed, due]
      rw [made] at waits ⊢
      exact comes_of_finds on waits finds
  obtain ⟨count, there, unmoved⟩ := loads
  have still : ((run c (List.replicate count (.step id)) (next c crew (.step id))).records store).Covers
      m := by
    rw [records, unmoved.2.1, first.2.1]
    exact covers
  obtain ⟨more, done, rest⟩ := comes_stale on there still
  refine ⟨count + more, ?_, ?_⟩
  · rw [← List.replicate_append_replicate, run_append, done]
  · rw [← List.replicate_append_replicate, run_append]
    exact unmoved.trans rest

end Crew

/-! ### What was merged once -/

namespace Dispatch

variable {σ : Type} {c : Consumer σ} {store : σ → Store}

/-- The message was accepted, and not refused before the wait. Neither depends on the store, so a message
that came through once will again. -/
def Cleared (registry : Registry) (m : Message) : Prop :=
  ∃ handler waits, registry.handlerFor? m = some handler ∧ dependencies handler m = .ok waits

/-- A message that is filtered or refused as it is received is not merged. -/
theorem cleared_of_receive {registry : Registry} {budget : WaitBudget} {now : Instant} {d : Dispatch}
    (phase : d.phase = receive registry budget now d.message) :
    Cleared registry d.message ∨
      ∃ result, d.verdict? = some result ∧
        ∀ outcome, result = .ok outcome → outcome.state ≠ .applied := by
  cases found : registry.handlerFor? d.message with
  | none =>
    refine .inr ⟨.ok .filtered, by simp [verdict?, phase, receive, found, Ending.result], ?_⟩
    rintro outcome ⟨⟩
    simp [Outcome.state]
  | some handler =>
    cases needed : dependencies handler d.message with
    | ok waits => exact .inl ⟨handler, waits, found, needed⟩
    | error error =>
      obtain ⟨reasons, rfl⟩ := error_of_dependencies needed
      refine .inr ⟨.ok (.deadLettered .malformedSnapshot), ?_, ?_⟩
      · simp [verdict?, phase, receive, found, needed, Ending.result, SyncError.isRetryable,
          Ending.reasonFor]
      · rintro outcome ⟨⟩
        simp [Outcome.state]

theorem kept_cleared (on : c.OnStore store) :
    Crew.Kept c (fun _ => True) fun _ d =>
      d.phase = .arrived ∨ Cleared c.registry d.message ∨
        ∃ result, d.verdict? = some result ∧
          ∀ outcome, result = .ok outcome → outcome.state ≠ .applied where
  sound_step _ _ _ _ _ := trivial
  arrives _ _ _ := .inl rfl
  own now desk d _ holds := by
    have same := d.message_step (c := c) now desk
    rcases holds with phase | cleared | ⟨result, decided, unmerged⟩
    · have made := d.phase_step on now desk
      simp only [phase] at made
      rw [← same] at made
      exact .inr (cleared_of_receive made)
    · rw [same]
      exact .inr (.inl cleared)
    · exact .inr (.inr ⟨result, (step_of_verdict? decided c now desk).1, unmerged⟩)
  other _ _ _ _ _ holds _ := holds

end Dispatch

namespace Crew

variable {σ : Type} {c : Consumer σ} {store : σ → Store} {moves : List (Move σ)}

theorem cleared_of_result (on : c.OnStore store) {s : σ} {id : Nat} {d : Dispatch} {outcome : Outcome}
    (found : (run c moves (opened s)).dispatches.get? id = some d)
    (given : d.result? = some (.ok outcome)) (merged : outcome.state = .applied) :
    Dispatch.Cleared c.registry d.message := by
  have decided := Dispatch.verdict?_of_result? given
  rcases (Dispatch.kept_cleared on).of_get? found with phase | cleared | ⟨result, other, unmerged⟩
  · simp [Dispatch.verdict?, phase] at decided
  · exact cleared
  · exact absurd merged (unmerged outcome (Option.some.inj (other.symm.trans decided)))

/-- Take any state that a run of a consumer on a store can reach, and a message that a handler accepts
and whose entity has a record as new as the message or newer.

Dispatched from there on, the message changes nothing: in whatever way other moves come between, none of
its steps touches the store, and it gives neither that the store changed nor that an unseen entity was
deleted. If nothing holds it up, then left alone it is outdated at the very moment, with the store and
the messages set aside as they were.

Both apply to every message that was merged, outdated or without effect when it was dispatched before:
its record is there, and only an entity that it waits for can hold it up. -/
theorem redelivered_without_effect (on : c.OnStore store) {s : σ}
    (keeps : ∀ move ∈ moves, KeepsRecords store move) {crew : Crew σ}
    (reached : run c moves (opened s) = crew) :
    (∀ id m handler, crew.dispatches.get? id = none → c.registry.handlerFor? m = some handler →
      (crew.records store).Covers m →
      (∀ later, (∀ move ∈ later, KeepsRecords store move) →
        (∀ before rest, later = before ++ .step id :: rest →
          store (run c (.receive id m :: (before ++ [.step id])) crew).desk.store =
            store (run c (.receive id m :: before) crew).desk.store) ∧
        ∀ d, (run c (.receive id m :: later) crew).dispatches.get? id = some d →
          (∀ change, d.result? ≠ some (.ok (.applied change))) ∧ d.result? ≠ some (.ok .noop)) ∧
      (c.LetsThrough crew.now crew.desk.store handler m →
        ∃ count d,
          (run c (.receive id m :: List.replicate count (.step id)) crew).dispatches.get? id =
            some d ∧
          d.result? = some (.ok .stale) ∧
          (run c (.receive id m :: List.replicate count (.step id)) crew).now = crew.now ∧
          store (run c (.receive id m :: List.replicate count (.step id)) crew).desk.store =
            store crew.desk.store ∧
          (run c (.receive id m :: List.replicate count (.step id)) crew).desk.letters =
            crew.desk.letters)) ∧
    (∀ id d outcome, crew.dispatches.get? id = some d → d.result? = some (.ok outcome) →
      ((∃ change, outcome = .applied change) ∨ outcome = .stale ∨ outcome = .noop) →
      (crew.records store).Covers d.message ∧
      ∃ handler, c.registry.handlerFor? d.message = some handler ∧
        (Dispatch.dependencies handler d.message = .ok none ∨
          ∃ keys, Dispatch.dependencies handler d.message = .ok (some keys))) := by
  subst reached
  refine ⟨fun id m handler free handled covers => ?_, fun id d outcome found given merged => ?_⟩
  · -- the message has been received and nothing else has happened
    generalize run c moves (opened s) = crew at free covers ⊢
    have made : next c crew (.receive id m) =
        { crew with dispatches := crew.dispatches.insert id { message := m } } := by
      simp [next, free]
    have found : (next c crew (.receive id m)).dispatches.get? id = some { message := m } := by
      rw [made, SortedMap.get?_insert_self]
    have still : ((next c crew (.receive id m)).records store).Covers m := by
      rw [made]
      exact covers
    have idle : Dispatch.Idle { message := m } :=
      Dispatch.idle_of_undecided (fun _ _ phase => by cases phase) rfl
    simp only [run_cons]
    refine ⟨fun later keepsLater => ⟨?_, fun d there => ?_⟩, fun through => ?_⟩
    · rintro before rest rfl
      obtain ⟨keepsBefore, -⟩ := List.forall_mem_append.1 keepsLater
      obtain ⟨covered, d, there, rfl, calm⟩ := idle_run on keepsBefore still ⟨_, found, rfl, idle⟩
      rw [run_append, run_cons, run_nil]
      exact store_next_of_idle on covered there calm
    · obtain ⟨-, e, same, -, calm⟩ := idle_run on keepsLater still ⟨_, found, rfl, idle⟩
      obtain rfl := Option.some.inj (same.symm.trans there)
      constructor
      · intro change given
        cases calm.2 _ (Dispatch.verdict?_of_result? given) rfl
      · intro given
        cases calm.2 _ (Dispatch.verdict?_of_result? given) rfl
    · have through : c.LetsThrough (next c crew (.receive id m)).now
          (next c crew (.receive id m)).desk.store handler m := by
        rw [made]
        exact through
      obtain ⟨count, there, now, same, letters⟩ :=
        comes_of_letsThrough on found handled through still
      rw [made] at now same letters
      refine ⟨count, _, there, rfl, ?_, ?_, ?_⟩
      · rw [made, now]
      · rw [made, same]
      · rw [made, letters]
  · have state := Outcome.state_eq_applied_iff.2 merged
    obtain ⟨handler, waits, handled, needed⟩ := cleared_of_result on found given state
    refine ⟨accounted_run on keeps s found outcome (Dispatch.verdict?_of_result? given) state, handler,
      handled, ?_⟩
    cases waits with
    | none => exact .inl needed
    | some keys => exact .inr ⟨keys, needed⟩

section Samples

open Fixtures

/-- An employee of the company was created, and the message was asked for. -/
def adaCreated : Message :=
  { employeeCreated "e-1" "Ada" "c-1" (stamp 2) with isForceSync := true }

/-- The company and the employee are there, and then this becomes of the company. -/
def adaAfter (change : Message) : List (Move Store) :=
  [.receive 0 (companyCreated "c-1" "Acme" (stamp 1))] ++ steps 0 4 ++ [.receive 1 adaCreated] ++
    steps 1 5 ++ [.receive 2 change] ++ steps 2 4

def renamed : List (Move Store) :=
  adaAfter (acmeUpdated (SortedMap.ofPairs [("name", .str "Acme Ltd")]) (stamp 3))

theorem redelivered_without_effect_renamed :
    (service.OnStore id ∧ (∀ move ∈ renamed, KeepsRecords id move) ∧
      (run service renamed (opened {})).dispatches.get? 3 = none ∧
      service.registry.handlerFor? adaCreated = some employees ∧
      ((run service renamed (opened {})).records id).Covers adaCreated ∧
      service.LetsThrough (run service renamed (opened {})).now
        (run service renamed (opened {})).desk.store employees adaCreated) ∧
    ∃ count d,
      (run service (.receive 3 adaCreated :: List.replicate count (.step 3))
        (run service renamed (opened {}))).dispatches.get? 3 = some d ∧
      d.result? = some (.ok .stale) := by
  have keeps : ∀ move ∈ renamed, KeepsRecords id move := by
    simp [renamed, adaAfter, steps, Move.Within]
  obtain ⟨again, merged⟩ := redelivered_without_effect service_onStore (s := {}) keeps rfl
  have covers := (merged 1 ⟨adaCreated, .done (.ok (.applied .inserted))⟩ _ rfl rfl
    (.inl ⟨.inserted, rfl⟩)).1
  have through : service.LetsThrough (run service renamed (opened {})).now
      (run service renamed (opened {})).desk.store employees adaCreated := by
    refine .inr ⟨[acme], rfl, by decide, ?_⟩
    exact (Consumer.finds_iff rfl).2 (by decide)
  obtain ⟨count, d, there, given, -⟩ := (again 3 adaCreated employees rfl rfl covers).2 through
  exact ⟨⟨service_onStore, keeps, rfl, rfl, covers, through⟩, count, d, there, given⟩

def orphaned : List (Move Store) := adaAfter (acmeDeleted ∅ (stamp 3))

/-- The employee's message is delivered once more, and its time to wait passes. -/
def onceMore : List (Move Store) :=
  [.receive 3 adaCreated] ++ steps 3 2 ++ [.pass (Duration.seconds 30)] ++ steps 3 4

/-- The employee as told by a message without a name. -/
def adaNameless : Message :=
  { adaCreated with snapshot := SortedMap.ofPairs [("companyId", .str "c-1")] }

/-- The employee's message, which was merged before the company was deleted, waits for the company until
its time is up, and is set aside. A message that is no newer and lacks the name is set aside at once. -/
theorem not_redelivered_stale_orphaned :
    ((run service orphaned (opened {})).dispatches.get? 1).bind (·.result?) =
      some (.ok (.applied .inserted)) ∧
    ((run service orphaned (opened {})).records id).Covers adaCreated ∧
    (run service orphaned (opened {})).desk.letters = [] ∧
    ((run service (orphaned ++ onceMore) (opened {})).dispatches.get? 3).bind (·.result?) =
      some (.ok (.escalated acme)) ∧
    (run service (orphaned ++ onceMore) (opened {})).desk.letters.map (·.reason) =
      [.dependencyTimeout] ∧
    ((run service orphaned (opened {})).records id).Covers adaNameless ∧
    service.registry.handlerFor? adaNameless = some employees ∧
    ((run service (orphaned ++ [.receive 3 adaNameless] ++ steps 3 4) (opened {})).dispatches.get?
      3).bind (·.result?) = some (.ok (.deadLettered .malformedSnapshot)) := by
  refine ⟨rfl, ⟨_, rfl, Stamp.le_refl _⟩, rfl, ?_, ?_, ⟨_, rfl, Stamp.le_refl _⟩, rfl, rfl⟩
  · decide +kernel
  · decide +kernel

end Samples

end Crew

end Replica

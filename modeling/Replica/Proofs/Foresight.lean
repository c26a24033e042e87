import Replica.Inspection
import Replica.Subscriber.Config
import Replica.Proofs.Malformed
import Replica.Proofs.Redelivery
/-! What the inspection of a file foretells of its messages. An inspection knows no records: it checks the
shape of a snapshot, and of a message that is not a deletion the references too. A dispatch does the same in two
places: before a wait, unless there is nothing to wait for, and in the merge, unless a deletion finds no record.
Of a snapshot that is marked as deleted it does not ask for the references. Apart from these two
differences a message is found fault with exactly if its dispatch refuses it. -/
namespace Replica

/-! ### What an inspection finds -/

namespace Requirement

/-- Each reference is an id, or may be absent and is. -/
def AllRead (rs : List Requirement) (s : Snapshot) : Prop :=
  ∀ r ∈ rs, ∃ key, r.reference s = .ok key

theorem allRead_iff {rs : List Requirement} {s : Snapshot} :
    AllRead rs s ↔ ∃ keys, references rs s = .ok keys := by
  have read (answer : Except String (Option EntityKey)) :
      (∃ key, answer = .ok key) ↔ ∀ reason, answer ≠ .error reason := by
    cases answer <;> simp
  unfold AllRead references
  simp only [List.isEmpty_iff, List.filterMap_eq_nil_iff, List.forall_mem_map, read]
  constructor
  · intro each
    refine ⟨_, if_pos fun r among => ?_⟩
    split
    · exact absurd ‹_› (each r among _)
    · rfl
  · rintro ⟨keys, all⟩ r among reason failed
    split at all
    · rename_i none_
      have quiet := none_ r among
      simp [failed] at quiet
    · cases all

end Requirement

/-- The merge into an older record, or into none, refuses the message. A deletion that finds no record is not
checked. -/
def Schema.Refuses (schema : Schema) (m : Message) (current : Option Record) : Prop :=
  schema.check m.snapshot (!m.action.isDeletion) ≠ .valid ∧ ¬ (m.action.isDeletion = true ∧ current = none)

namespace Handler

variable {handler : Handler} {m : Message} {current : Option Record}

/-- An inspection finds fault with the message. -/
def FaultFound (handler : Handler) (m : Message) : Prop :=
  handler.schema.check m.snapshot (!m.action.isDeletion) ≠ .valid ∨
    m.action.isDeletion = false ∧ ¬ Requirement.AllRead handler.requirements m.snapshot

/-- A dispatch refuses the message: as it merges it into this record, or into none, or before its wait. -/
def Refuses (handler : Handler) (m : Message) (current : Option Record) : Prop :=
  handler.schema.Refuses m current ∨
    m.action.isDeletion = false ∧ handler.schema.isSoftDeleted m.snapshot = false ∧
      ¬ Requirement.AllRead handler.requirements m.snapshot

/-- The snapshot has the right shape and is marked as deleted, and one of its references cannot be read. -/
def Disowns (handler : Handler) (m : Message) : Prop :=
  m.action.isDeletion = false ∧ handler.schema.isSoftDeleted m.snapshot = true ∧
    handler.schema.check m.snapshot true = .valid ∧
    ¬ Requirement.AllRead handler.requirements m.snapshot

/-- Where an inspection and a dispatch differ, and nowhere else. -/
theorem refuses_iff :
    handler.Refuses m current ↔
      handler.FaultFound m ∧ ¬ handler.Disowns m ∧ ¬ (m.action.isDeletion = true ∧ current = none) := by
  unfold Refuses Schema.Refuses FaultFound Disowns
  constructor
  · rintro (⟨misshapen, known⟩ | ⟨lives, unmarked, unread⟩)
    · refine ⟨.inl misshapen, fun disowns => misshapen ?_, known⟩
      rw [disowns.1]
      exact disowns.2.2.1
    · exact ⟨.inr ⟨lives, unread⟩, by simp [unmarked], by simp [lives]⟩
  · rintro ⟨misshapen | ⟨lives, unread⟩, owns, known⟩
    · exact .inl ⟨misshapen, known⟩
    · by_cases fits : handler.schema.check m.snapshot true = .valid
      · cases marked : handler.schema.isSoftDeleted m.snapshot with
        | true => exact absurd ⟨lives, marked, fits, unread⟩ owns
        | false => exact .inr ⟨lives, rfl, unread⟩
      · exact .inl ⟨by simpa [lives] using fits, known⟩

end Handler

/-- An inspection has something to say of a message exactly if its handler finds fault with it. -/
theorem Inspection.problems_ne_nil_iff {registry : Registry} {m : Message} {line : Nat} :
    (report (some registry) ⟨line, .ok m⟩).problems ≠ [] ↔
      ∃ handler, SortedMap.get? registry m.entityKind = some handler ∧ handler.FaultFound m := by
  have told : (report (some registry) ⟨line, .ok m⟩).problems = (checkMessage registry m).reasons := rfl
  rw [told, checkMessage]
  cases found : SortedMap.get? registry m.entityKind with
  | none => simp [Validation.reasons]
  | some handler =>
    simp only [Option.some.injEq, exists_eq_left', Handler.FaultFound]
    cases deletion : m.action.isDeletion with
    | true => simp [Schema.reasons_check_eq_nil_iff]
    | false =>
      rw [Ne, Bool.not_false, if_neg Bool.false_ne_true, Validation.reasons_both, List.append_eq_nil_iff,
        Schema.reasons_check_eq_nil_iff, Validation.reasons_all, List.flatMap_eq_nil_iff]
      simp only [List.forall_mem_map, Classical.not_and_iff_not_or_not, true_and]
      refine or_congr_right (not_congr (forall₂_congr fun r _ => ?_))
      cases r.reference m.snapshot <;> simp [Validation.reasons]

/-! ### What a dispatch refuses -/

/-- Some handler accepts the message, and its dispatch refuses it. -/
def Registry.Refuses (registry : Registry) (m : Message) (current : Option Record) : Prop :=
  ∃ handler, registry.handlerFor? m = some handler ∧ handler.Refuses m current

/-- Looks for the entities that the message refers to, from this state on, find them all. -/
def Consumer.FindsReferences {σ : Type} (c : Consumer σ) (s : σ) (m : Message) : Prop :=
  ∀ handler keys, c.registry.handlerFor? m = some handler →
    Requirement.references handler.requirements m.snapshot = .ok keys → c.Finds keys s

/-- A consumer that looks for entities in its store finds what the message refers to if all of it is live. -/
theorem Consumer.findsReferences_iff {c : Consumer Store} (backend : c.backend = Store.backend) {s : Store}
    {m : Message} :
    c.FindsReferences s m ↔ ∀ handler keys, c.registry.handlerFor? m = some handler →
      Requirement.references handler.requirements m.snapshot = .ok keys → ∀ key ∈ keys, s.isLive key = true := by
  simp only [FindsReferences, finds_iff backend]

namespace Dispatch

variable {handler : Handler} {m : Message} {current : Option Record}

/-- Everything that can be said of a message before its wait. -/
theorem dependencies_cases (handler : Handler) (m : Message) :
    dependencies handler m = .ok none ∧
        (m.action.isDeletion = true ∨ handler.schema.isSoftDeleted m.snapshot = true ∨
          handler.requirements = []) ∨
      m.action.isDeletion = false ∧ handler.schema.isSoftDeleted m.snapshot = false ∧
        ((∃ reasons, dependencies handler m = .error (.malformedSnapshot m.key reasons)) ∧
            (handler.schema.check m.snapshot true ≠ .valid ∨
              ¬ Requirement.AllRead handler.requirements m.snapshot) ∨
          handler.schema.check m.snapshot true = .valid ∧
            ∃ keys, Requirement.references handler.requirements m.snapshot = .ok keys ∧
              dependencies handler m = .ok (some keys)) := by
  unfold dependencies
  split
  next free =>
    simp only [Bool.or_eq_true, List.isEmpty_iff, or_assoc] at free
    exact .inl ⟨rfl, free⟩
  next bound =>
    simp only [Bool.or_eq_true, not_or, Bool.not_eq_true] at bound
    refine .inr ⟨bound.1.1, bound.1.2, ?_⟩
    cases handler.schema.check m.snapshot true with
    | invalid reasons => exact .inl ⟨⟨reasons, rfl⟩, .inl (by simp)⟩
    | valid =>
      rw [Requirement.allRead_iff]
      cases Requirement.references handler.requirements m.snapshot with
      | error reasons => exact .inl ⟨⟨reasons, rfl⟩, .inr (by simp)⟩
      | ok keys => exact .inr ⟨rfl, keys, rfl, rfl⟩

/-- What loading leads to where the record is older than the message. -/
theorem onLoad_of_older {schema : Schema}
    (older : ∀ record, current = some record → record.lastSyncedAt < m.emittedAt) :
    schema.Refuses m current ∧
        (∃ reasons, onLoad schema m (.ok current) = .closing (.failed (.malformedSnapshot m.key reasons))) ∨
      ¬ schema.Refuses m current ∧
        ∃ record outcome, onLoad schema m (.ok current) = .writing record outcome ∧ outcome.state = .applied := by
  rcases onLoad_cases schema m current with ⟨record, outcome, writes, merges⟩ | ⟨-, record, found, late⟩ |
    ⟨reasons, ends, misshapen⟩
  · refine .inr ⟨?_, record, outcome, writes, merges.state_eq⟩
    rintro ⟨misshapen, known⟩
    cases current with
    | none =>
      rcases Resolution.merges_none_iff.1 merges with ⟨deletion, -⟩ | ⟨lives, fits, -⟩
      · exact known ⟨deletion, rfl⟩
      · exact misshapen (by simpa [lives] using fits)
    | some old => exact misshapen (Resolution.merges_some_iff.1 merges).2.1
  · exact absurd late (Stamp.not_le.2 (older record found))
  · refine .inl ⟨⟨misshapen, ?_⟩, reasons, ends⟩
    rintro ⟨deletion, rfl⟩
    simp [onLoad, Resolution.resolve, deletion] at ends

variable {σ : Type} {c : Consumer σ} {store : σ → Store}

/-- The result of a refusal. -/
abbrev refusal : DispatchResult := .ok (.deadLettered .malformedSnapshot)

/-- A dispatch by itself, once its message is received, of which is known whether it ends in a refusal. Only a
message that passed the check looks for what it refers to, and finds it. -/
inductive Foretells (c : Consumer σ) (store : σ → Store) (m : Message) (current : Option Record)
    (refused : Prop) (s : σ) : Phase → Prop
  | probing {w : DependencyWait} (there : (store s).load m.key = current) (passed : ¬ refused)
    (fits : w.schema.check m.snapshot (!m.action.isDeletion) = .valid) (finds : c.Finds (w.key :: w.later) s) :
    Foretells c store m current refused s (.probing w)
  | loading {schema : Schema} (there : (store s).load m.key = current)
    (same : refused ↔ schema.Refuses m current) : Foretells c store m current refused s (.loading schema)
  | writing {record : Record} {outcome : Outcome} (passed : ¬ refused) (merged : outcome.state = .applied) :
    Foretells c store m current refused s (.writing record outcome)
  | decided {phase : Phase} {result : DispatchResult} (given : verdict? ⟨m, phase⟩ = some result)
    (same : result = refusal ↔ refused) : Foretells c store m current refused s phase

/-- How many more steps a dispatch makes at most that finds what it looks for. -/
def Phase.toGo : Phase → Nat
  | .probing w => w.later.length + 5
  | phase => phase.stepsLeft

variable {refused : Prop}

theorem foretells_of_refused {s : σ} {reasons : List String} (yes : refused) :
    Foretells c store m current refused s (.closing (.failed (.malformedSnapshot m.key reasons))) :=
  .decided rfl (by simp [yes, Ending.result, SyncError.isRetryable, Ending.reasonFor])

theorem foretells_of_merged {s : σ} {outcome : Outcome} (passed : ¬ refused) (merged : outcome.state = .applied) :
    Foretells c store m current refused s (.closing (.plain outcome)) := by
  refine .decided rfl ⟨fun same => ?_, fun yes => absurd yes passed⟩
  obtain rfl := Except.ok.inj same
  cases merged

/-- As long as each look finds its entity, the dispatch goes on to its merge. -/
theorem foretells_await {s : σ} {schema : Schema} (there : (store s).load m.key = current) (passed : ¬ refused)
    (fits : schema.check m.snapshot (!m.action.isDeletion) = .valid) (since deadline now : Instant)
    {keys : List EntityKey} (finds : c.Finds keys s) :
    Foretells c store m current refused s (await schema since deadline now keys) ∧
      (await schema since deadline now keys).toGo ≤ keys.length + 4 := by
  cases keys with
  | nil =>
    refine ⟨.loading there ⟨fun yes => absurd yes passed, fun refuses => absurd fits refuses.1⟩, ?_⟩
    simp [await, Phase.toGo, Phase.stepsLeft]
  | cons key later => exact ⟨.probing there passed fits finds, by simp [await, Phase.toGo]⟩

/-- A write fails only if it was told to, and that is no refusal. -/
theorem foretells_onWrite {s : σ} {outcome : Outcome} (passed : ¬ refused) (merged : outcome.state = .applied)
    (kept : Store) (record : Record) :
    Foretells c store m current refused s (onWrite outcome (kept.upsertIfNewer record).1) ∧
      (onWrite outcome (kept.upsertIfNewer record).1).toGo = 2 := by
  rcases onWrite_cases outcome (kept.upsertIfNewer record).1 with ⟨error, failed, ends⟩ |
    ⟨upsert, -, -, ends⟩ | ⟨upsert, -, -, ends⟩ <;> rw [ends]
  · have injected : error = Store.injectedFailure := by
      rcases kept.upsertIfNewer_cases record with ⟨told, -⟩ | ⟨written, -⟩
      · exact Except.error.inj (failed.symm.trans told)
      · cases failed.symm.trans written
    subst injected
    refine ⟨.decided rfl ⟨fun same => ?_, fun yes => absurd yes passed⟩, rfl⟩
    cases same
  · exact ⟨foretells_of_merged passed rfl, rfl⟩
  · exact ⟨foretells_of_merged passed merged, rfl⟩

theorem toGo_step_of_verdict? {phase : Phase} {result : DispatchResult}
    (given : verdict? ⟨m, phase⟩ = some result) (now : Instant) (desk : Desk σ) :
    (step c now desk ⟨m, phase⟩).2.phase.toGo ≤ phase.toGo - 1 := by
  cases phase with
  | closing ending =>
    simp only [step]
    split <;> simp [Phase.toGo, Phase.stepsLeft]
  | shelving letter result => simp [step, Phase.toGo, Phase.stepsLeft]
  | done result => simp [step, Phase.toGo, Phase.stepsLeft]
  | _ => simp [verdict?] at given

/-- A step leads on to what was foretold, and nearer to it. -/
theorem foretells_step (on : c.OnStore store)
    (older : ∀ record, current = some record → record.lastSyncedAt < m.emittedAt) (now : Instant)
    (desk : Desk σ) {phase : Phase} (foretells : Foretells c store m current refused desk.store phase) :
    Foretells c store m current refused (step c now desk ⟨m, phase⟩).1.store
        (step c now desk ⟨m, phase⟩).2.phase ∧
      (step c now desk ⟨m, phase⟩).2.phase.toGo ≤ phase.toGo - 1 := by
  cases foretells with
  | @probing w there passed fits finds =>
    obtain ⟨answered, finds⟩ := finds
    have looked : (store (c.backend.probe w.key desk.store).2).load m.key = current := by
      rw [on.store_probe, there]
    have made : step c now desk ⟨m, .probing w⟩ =
        ({ desk with store := (c.backend.probe w.key desk.store).2 },
          ⟨m, await w.schema w.since w.deadline now w.later⟩) := by
      simp [step, answered, onProbe]
    rw [made]
    exact foretells_await looked passed fits _ _ _ finds
  | @loading schema there same =>
    have made : step c now desk ⟨m, .loading schema⟩ = (desk, ⟨m, onLoad schema m (.ok current)⟩) := by
      simp [step, on.load, there]
    rw [made]
    rcases onLoad_of_older older with ⟨refuses, reasons, ends⟩ | ⟨accepts, record, outcome, writes, merged⟩
    · rw [ends]
      exact ⟨foretells_of_refused (same.2 refuses), by simp [Phase.toGo, Phase.stepsLeft]⟩
    · rw [writes]
      exact ⟨.writing (fun yes => accepts (same.1 yes)) merged, by simp [Phase.toGo, Phase.stepsLeft]⟩
  | @writing record outcome passed merged =>
    have made : (step c now desk ⟨m, .writing record outcome⟩).2.phase =
        onWrite outcome ((store desk.store).upsertIfNewer record).1 := by
      simp [step, on.upsert]
    rw [made]
    exact (foretells_onWrite passed merged (store desk.store) record).imp_right Nat.le_of_eq
  | @decided _ result given same =>
    have still := (step_of_verdict? given c now desk).1
    have own : (step c now desk ⟨m, phase⟩).2 = ⟨m, (step c now desk ⟨m, phase⟩).2.phase⟩ :=
      step_eq_of_phase rfl
    exact ⟨.decided (own ▸ still) same, toGo_step_of_verdict? given now desk⟩

/-- Receiving the message foretells how its dispatch ends, if what it refers to is found. -/
theorem foretells_receive {s : σ} (there : (store s).load m.key = current) (finds : c.FindsReferences s m)
    (now : Instant) :
    receive c.registry c.budget now m = .beyondClock ∧
        Instant.after? now (c.budget.budgetFor m.isForceSync) = none ∨
      Foretells c store m current (c.registry.Refuses m current) s (receive c.registry c.budget now m) := by
  unfold receive Registry.Refuses
  cases handled : c.registry.handlerFor? m with
  | none => exact .inr (.decided rfl (by simp [Ending.result]))
  | some handler =>
    have sole : (∃ other, some handler = some other ∧ other.Refuses m current) ↔ handler.Refuses m current := by
      simp
    rcases dependencies_cases handler m with ⟨free, shape⟩ |
      ⟨lives, unmarked, ⟨⟨reasons, refused⟩, fault⟩ | ⟨fits, keys, referred, needed⟩⟩
    · -- nothing is checked before the merge, and nothing is missing that was not checked
      refine .inr ?_
      simp only [free]
      refine .loading there (sole.trans (or_iff_left ?_))
      rintro ⟨lives, unmarked, unread⟩
      rcases shape with deletion | marked | none_
      · simp [deletion] at lives
      · simp [marked] at unmarked
      · exact unread (by simp [none_, Requirement.AllRead])
    · refine .inr ?_
      simp only [refused]
      refine foretells_of_refused (sole.2 ?_)
      rcases fault with misshapen | unread
      · exact .inl ⟨by simpa [lives] using misshapen, by simp [lives]⟩
      · exact .inr ⟨lives, unmarked, unread⟩
    · have sound : handler.schema.check m.snapshot (!m.action.isDeletion) = .valid := by simpa [lives] using fits
      have passed : ¬ ∃ other, some handler = some other ∧ other.Refuses m current := by
        rw [sole]
        rintro (⟨misshapen, -⟩ | ⟨-, -, unread⟩)
        · exact misshapen sound
        · exact unread (Requirement.allRead_iff.2 ⟨keys, referred⟩)
      simp only [needed]
      cases due : Instant.after? now (c.budget.budgetFor m.isForceSync) with
      | none => exact .inl ⟨rfl, rfl⟩
      | some deadline => exact .inr (foretells_await there passed sound _ _ _ (finds handler keys handled referred)).1

theorem Foretells.result_iff {s : σ} {phase : Phase} (foretells : Foretells c store m current refused s phase)
    {result : DispatchResult} (given : verdict? ⟨m, phase⟩ = some result) : result = refusal ↔ refused := by
  cases foretells with
  | decided known same =>
    obtain rfl := Option.some.inj (given.symm.trans known)
    exact same
  | _ => cases given

theorem Foretells.ready_or_done {s : σ} {phase : Phase}
    (foretells : Foretells c store m current refused s phase) (now : Instant) :
    ready now ⟨m, phase⟩ = true ∧ 0 < phase.toGo ∨ (result? ⟨m, phase⟩).isSome = true := by
  cases foretells with
  | decided given same =>
    cases phase with
    | closing ending => exact .inl ⟨rfl, Nat.succ_pos _⟩
    | shelving letter result => exact .inl ⟨rfl, Nat.succ_pos _⟩
    | done result => exact .inr rfl
    | _ => cases given
  | _ => exact .inl ⟨rfl, Nat.succ_pos _⟩

/-- A dispatch by itself: its message is received and nothing has happened since, or the clock ends before its
wait, or it is known how it ends. -/
def OnCourse (c : Consumer σ) (store : σ → Store) (m : Message) (current : Option Record) (s : σ)
    (phase : Phase) : Prop :=
  phase = .arrived ∧ (store s).load m.key = current ∧ c.FindsReferences s m ∨ phase = .beyondClock ∨
    Foretells c store m current (c.registry.Refuses m current) s phase

theorem onCourse_step (on : c.OnStore store)
    (older : ∀ record, current = some record → record.lastSyncedAt < m.emittedAt) (now : Instant)
    (desk : Desk σ) {phase : Phase} (course : OnCourse c store m current desk.store phase) :
    OnCourse c store m current (step c now desk ⟨m, phase⟩).1.store (step c now desk ⟨m, phase⟩).2.phase := by
  rcases course with ⟨rfl, there, finds⟩ | rfl | foretells
  · exact .inr ((foretells_receive there finds now).imp_left (·.1))
  · exact .inr (.inl rfl)
  · exact .inr (.inr (foretells_step on older now desk foretells).1)

end Dispatch

namespace Crew

variable {σ : Type} {c : Consumer σ} {store : σ → Store} {m : Message} {current : Option Record}

/-- The move is a step of this dispatch, or lets time pass. -/
def Move.IsLone (id : Nat) : Move σ → Prop
  | step n => n = id
  | pass _ => True
  | _ => False

/-- What a step leaves of the dispatch that makes it, and of the desk. -/
theorem next_step_eq {crew : Crew σ} {id : Nat} {phase : Dispatch.Phase}
    (found : crew.dispatches.get? id = some ⟨m, phase⟩) (ready : Dispatch.ready crew.now ⟨m, phase⟩ = true) :
    (next c crew (.step id)).dispatches.get? id =
        some ⟨m, (Dispatch.step c crew.now crew.desk ⟨m, phase⟩).2.phase⟩ ∧
      (next c crew (.step id)).desk = (Dispatch.step c crew.now crew.desk ⟨m, phase⟩).1 := by
  have own : (Dispatch.step c crew.now crew.desk ⟨m, phase⟩).2 =
      ⟨m, (Dispatch.step c crew.now crew.desk ⟨m, phase⟩).2.phase⟩ := Dispatch.step_eq_of_phase rfl
  rw [next_step_of_ready c found ready]
  exact ⟨by rw [SortedMap.get?_insert_self, ← own], rfl⟩

/-- A dispatch by itself stays on its course. -/
theorem onCourse_run (on : c.OnStore store)
    (older : ∀ record, current = some record → record.lastSyncedAt < m.emittedAt) {id : Nat}
    {moves : List (Move σ)} (lone : ∀ move ∈ moves, move.IsLone id) {crew : Crew σ} {phase : Dispatch.Phase}
    (found : crew.dispatches.get? id = some ⟨m, phase⟩)
    (course : Dispatch.OnCourse c store m current crew.desk.store phase) :
    ∃ later, (run c moves crew).dispatches.get? id = some ⟨m, later⟩ ∧
      Dispatch.OnCourse c store m current (run c moves crew).desk.store later := by
  induction moves generalizing crew phase with
  | nil => exact ⟨phase, found, course⟩
  | cons move rest ih =>
    obtain ⟨first, others⟩ := List.forall_mem_cons.1 lone
    cases move with
    | step n =>
      obtain rfl : n = id := first
      by_cases ready : Dispatch.ready crew.now ⟨m, phase⟩ = true
      · obtain ⟨there, desk⟩ := next_step_eq (c := c) found ready
        refine ih others there ?_
        rw [desk]
        exact Dispatch.onCourse_step on older crew.now crew.desk course
      · have same : next c crew (.step n) = crew := by simp [next, found, ready]
        rw [run_cons, same]
        exact ih others found course
    | pass time => exact ih others found course
    | receive n other => cases first
    | poke f => cases first

/-- A dispatch of which is known how it ends does end. -/
theorem ends_of_foretells (on : c.OnStore store)
    (older : ∀ record, current = some record → record.lastSyncedAt < m.emittedAt) {refused : Prop} {id : Nat}
    {crew : Crew σ} {phase : Dispatch.Phase} (found : crew.dispatches.get? id = some ⟨m, phase⟩)
    (foretells : Dispatch.Foretells c store m current refused crew.desk.store phase) :
    ∃ count d, (run c (List.replicate count (.step id)) crew).dispatches.get? id = some d ∧
      d.result?.isSome = true := by
  generalize left : phase.toGo = n
  induction n using Nat.strongRecOn generalizing crew phase with
  | ind n sooner =>
    rcases foretells.ready_or_done crew.now with ⟨ready, going⟩ | ended
    · obtain ⟨still, nearer⟩ := Dispatch.foretells_step on older crew.now crew.desk foretells
      obtain ⟨there, desk⟩ := next_step_eq (c := c) found ready
      rw [← desk] at still
      obtain ⟨count, d, later, ended⟩ := sooner _ (by omega) there still rfl
      exact ⟨count + 1, d, later, ended⟩
    · exact ⟨0, _, found, ended⟩

end Crew

/-! ### Both agree -/

theorem Registry.get?_ofList {handlers : List Handler} {kind : String} {handler : Handler}
    (found : SortedMap.get? (ofList handlers) kind = some handler) : handler ∈ handlers := by
  suffices ∀ registry : Registry, SortedMap.get? (handlers.foldl register registry) kind = some handler →
      handler ∈ handlers ∨ SortedMap.get? registry kind = some handler from
    (this ∅ found).resolve_right fun none_ => by cases none_
  clear found
  induction handlers with
  | nil => exact fun _ found => .inr found
  | cons first rest ih =>
    intro registry found
    rcases ih _ found with among | early
    · exact .inl (List.mem_cons_of_mem _ among)
    · rw [register, SortedMap.get?_insert] at early
      split at early
      · exact .inl (by simp [Option.some.inj early])
      · exact .inr early

/-- The handlers of a subscriber's description accept every message of their kinds. -/
theorem Subscriber.Config.handlerFor?_registry (config : Config) (m : Message) :
    config.registry.handlerFor? m = SortedMap.get? config.registry m.entityKind := by
  unfold Registry.handlerFor?
  cases found : SortedMap.get? config.registry m.entityKind with
  | none => rfl
  | some handler =>
    obtain ⟨entry, -, rfl⟩ := List.mem_map.1 (Registry.get?_ofList found)
    rfl

namespace Crew

variable {σ : Type} {c : Consumer σ} {store : σ → Store}

/-- Take a consumer with the handlers of a subscriber's description, any state of it, and a message that is newer
than the record of its entity, if there is one, and whose references are live. Leave out messages whose snapshot
is marked as deleted and has the right shape, with a reference that cannot be read.

However time passes, a dispatch of the message by itself can end only in this way: it is set aside as malformed if
an inspection with the same handlers reports a problem, unless the message is a deletion that finds no record, and
else it is not. And it does end, with no time passing, if the clock reaches to the end of its budget. -/
theorem refused_iff_reported (on : c.OnStore store) {config : Subscriber.Config}
    (registered : c.registry = config.registry) {crew : Crew σ} {id : Nat} {m : Message}
    (free : crew.dispatches.get? id = none)
    (older : ∀ record, SortedMap.get? (crew.records store) m.key = some record →
      record.lastSyncedAt < m.emittedAt)
    (live : c.FindsReferences crew.desk.store m)
    (owns : ∀ handler, SortedMap.get? config.registry m.entityKind = some handler → ¬ handler.Disowns m)
    (line : Nat) :
    (∀ moves d result, (∀ move ∈ moves, move.IsLone id) →
      (run c (.receive id m :: moves) crew).dispatches.get? id = some d → d.result? = some result →
      (result = .ok (.deadLettered .malformedSnapshot) ↔
        (Inspection.report (some config.registry) ⟨line, .ok m⟩).problems ≠ [] ∧
          ¬ (m.action.isDeletion = true ∧ SortedMap.get? (crew.records store) m.key = none))) ∧
    ((Instant.after? crew.now (c.budget.budgetFor m.isForceSync)).isSome = true →
      ∃ count d, (run c (.receive id m :: List.replicate count (.step id)) crew).dispatches.get? id = some d ∧
        d.result?.isSome = true) := by
  have made : next c crew (.receive id m) =
      { crew with dispatches := crew.dispatches.insert id { message := m } } := by
    simp [next, free]
  have found : (next c crew (.receive id m)).dispatches.get? id = some { message := m } := by
    rw [made, SortedMap.get?_insert_self]
  have there : (store (next c crew (.receive id m)).desk.store).load m.key =
      SortedMap.get? (crew.records store) m.key := by
    rw [made]
    rfl
  have finds : c.FindsReferences (next c crew (.receive id m)).desk.store m := by
    rw [made]
    exact live
  constructor
  · intro moves d result lone last given
    obtain ⟨phase, same, course⟩ := onCourse_run on older lone found (.inl ⟨rfl, there, finds⟩)
    obtain rfl := Option.some.inj (same.symm.trans last)
    have decided := Dispatch.verdict?_of_result? given
    rcases course with ⟨rfl, -⟩ | rfl | foretells
    · cases decided
    · cases decided
    · rw [foretells.result_iff decided, Inspection.problems_ne_nil_iff, Registry.Refuses, registered,
        config.handlerFor?_registry, ← exists_and_right]
      refine exists_congr fun handler => ?_
      rw [and_assoc, Handler.refuses_iff]
      exact and_congr_right fun handled => and_congr_right fun _ => and_iff_right (owns handler handled)
  · intro due
    obtain ⟨goes, desk⟩ := next_step_eq (c := c) found rfl
    rcases Dispatch.foretells_receive there finds (next c crew (.receive id m)).now with ⟨-, beyond⟩ | foretells
    · rw [made] at beyond
      simp [beyond] at due
    · obtain ⟨count, d, later, ended⟩ := ends_of_foretells on older goes (by rw [desk]; exact foretells)
      exact ⟨count + 1, d, later, ended⟩

section Samples

open Fixtures

/-- Companies, and employees who have to wait for their company; both may be marked as deleted. -/
def staff : Subscriber.Config where
  handlers := [
    { kind := "company", fields := ["name"], softDelete := some "isDeleted" },
    { kind := "employee", fields := ["name"], softDelete := some "isDeleted"
      dependencies := [{ field := "companyId", kind := "company" }] } ]

/-- A consumer with these handlers, on a store of its own. -/
def staffMirror : Consumer Store := { registry := staff.registry, backend := Store.backend }

/-- An employee was created, and these are the fields. -/
def adaWith (snapshot : Snapshot) : Message :=
  { entityId := "e-1", entityKind := "employee", action := .created, snapshot, emittedAt := stamp 2
    isForceSync := false }

/-- An employee without a name, of a company. -/
def nameless : Message := adaWith (SortedMap.ofPairs [("companyId", .str "c-1")])

/-- An employee of no company, who left. -/
def companyless : Message :=
  adaWith (SortedMap.ofPairs [("name", .str "Ada"), ("isDeleted", .ofJson (.bool true))])

theorem findsReferences_nameless : staffMirror.FindsReferences acmeKnown nameless := by
  refine (Consumer.findsReferences_iff rfl).2 fun handler keys handled referred => ?_
  obtain rfl := Option.some.inj handled
  obtain rfl := Except.ok.inj referred
  decide

/-- The company is there and the name is missing: that is reported, and the message is set aside. -/
theorem refused_iff_reported_nameless :
    (staffMirror.OnStore id ∧ staffMirror.registry = staff.registry ∧
      (opened acmeKnown).dispatches.get? 0 = none ∧
      (∀ record, SortedMap.get? ((opened acmeKnown).records id) nameless.key = some record →
        record.lastSyncedAt < nameless.emittedAt) ∧
      staffMirror.FindsReferences (opened acmeKnown).desk.store nameless ∧
      ∀ handler, SortedMap.get? staff.registry nameless.entityKind = some handler →
        ¬ handler.Disowns nameless) ∧
    (Inspection.report (some staff.registry) ⟨1, .ok nameless⟩).problems =
      ["missing required field `name`"] ∧
    ∃ count d,
      (run staffMirror (.receive 0 nameless :: List.replicate count (.step 0))
        (opened acmeKnown)).dispatches.get? 0 = some d ∧
      d.result? = some (.ok (.deadLettered .malformedSnapshot)) := by
  have on : staffMirror.OnStore id := Consumer.onStore_of_backend rfl
  have older (record : Record)
      (found : SortedMap.get? ((opened acmeKnown).records id) nameless.key = some record) :
      record.lastSyncedAt < nameless.emittedAt := by cases found
  have owns (handler : Handler) (handled : SortedMap.get? staff.registry nameless.entityKind = some handler) :
      ¬ handler.Disowns nameless := by
    obtain rfl := Option.some.inj handled
    exact fun disowns => absurd disowns.2.1 (by decide)
  obtain ⟨results, ends⟩ := refused_iff_reported on rfl rfl older findsReferences_nameless owns 1
  refine ⟨⟨on, rfl, rfl, older, findsReferences_nameless, owns⟩, rfl, ?_⟩
  obtain ⟨count, d, found, ended⟩ := ends rfl
  obtain ⟨result, given⟩ := Option.isSome_iff_exists.1 ended
  have lone : ∀ move ∈ List.replicate count (.step 0), Move.IsLone 0 (move : Move Store) := by
    intro move among
    obtain rfl := List.eq_of_mem_replicate among
    rfl
  have refused := (results _ d result lone found given).2 ⟨by decide, by decide⟩
  exact ⟨count, d, found, refused ▸ given⟩

/-- A deletion of a company never seen, with a mark that cannot be read, leaves its trace; and an employee who left
is merged although the company is missing. Both are reported. -/
theorem reported_not_refused :
    staff.check = .ok () ∧
    ((Inspection.report (some staff.registry) ⟨1, .ok (acmeDeleted unreadable (stamp 2))⟩).problems =
        ["`isDeleted` must be a boolean"] ∧
      ((run staffMirror ([.receive 0 (acmeDeleted unreadable (stamp 2))] ++ steps 0 4)
        (opened {})).dispatches.get? 0).bind (·.result?) = some (.ok .noop)) ∧
    (Inspection.report (some staff.registry) ⟨1, .ok companyless⟩).problems =
        ["missing reference field `companyId`"] ∧
      ((run staffMirror ([.receive 0 companyless] ++ steps 0 4) (opened {})).dispatches.get? 0).bind (·.result?) =
        some (.ok (.applied .inserted)) :=
  ⟨rfl, ⟨rfl, rfl⟩, rfl, rfl⟩

end Samples

end Crew

end Replica

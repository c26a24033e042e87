import Replica.Proofs.Crew
import Replica.Proofs.Merge
/-! The course of a dispatch, step by step. A dispatch works throughout with the schema of the handler
that its message goes to, and what it writes is a merge of the message by that schema. Once it is
decided what it gives, its steps change neither that nor the store. A dispatch that waits for no other
entity ends after five steps of its own, whatever happens between them. -/
namespace Replica

namespace Registry

/-- The schema by which a message is merged: the one of the handler that the message goes to. -/
def schemaFor? (registry : Registry) (m : Message) : Option Schema :=
  (registry.handlerFor? m).map (·.schema)

/-- The message goes to a handler and has to wait for other entities. -/
def Waits (registry : Registry) (m : Message) : Prop :=
  ∃ handler keys, registry.handlerFor? m = some handler ∧
    Dispatch.dependencies handler m = .ok (some keys)

end Registry

namespace Dispatch

/-! ### One step -/

/-- A message is refused before the wait only for its snapshot. -/
theorem error_of_dependencies {handler : Handler} {m : Message} {error : SyncError}
    (refused : dependencies handler m = .error error) :
    ∃ reasons, error = .malformedSnapshot m.key reasons := by
  unfold dependencies at refused
  grind

/-- The next phase of a wait is to look for an entity, or to load the record. -/
theorem await_cases (schema : Schema) (since deadline now : Instant) (keys : List EntityKey) :
    await schema since deadline now keys = .loading schema ∨
      ∃ w, await schema since deadline now keys = .probing w ∧ w.schema = schema := by
  cases keys with
  | nil => exact .inl rfl
  | cons key later => exact .inr ⟨_, rfl, rfl⟩

/-- Everything that receiving a message can lead to. -/
theorem receive_cases (registry : Registry) (budget : WaitBudget) (now : Instant) (m : Message) :
    receive registry budget now m = .closing (.plain .filtered) ∧ registry.schemaFor? m = none ∨
    ∃ schema, registry.schemaFor? m = some schema ∧
      ((∃ reasons, receive registry budget now m =
          .closing (.failed (.malformedSnapshot m.key reasons))) ∨
        receive registry budget now m = .loading schema ∨
        registry.Waits m ∧ (receive registry budget now m = .beyondClock ∨
          ∃ w, receive registry budget now m = .probing w ∧ w.schema = schema)) := by
  unfold Registry.schemaFor?
  cases found : registry.handlerFor? m with
  | none => exact .inl ⟨by simp [receive, found], rfl⟩
  | some handler =>
    refine .inr ⟨handler.schema, rfl, ?_⟩
    cases needed : dependencies handler m with
    | error error =>
      obtain ⟨reasons, rfl⟩ := error_of_dependencies needed
      exact .inl ⟨reasons, by simp [receive, found, needed]⟩
    | ok keys =>
      cases keys with
      | none => exact .inr (.inl (by simp [receive, found, needed]))
      | some keys =>
        have waits : registry.Waits m := ⟨handler, keys, found, needed⟩
        cases due : Instant.after? now (budget.budgetFor m.isForceSync) with
        | none => exact .inr (.inr ⟨waits, .inl (by simp [receive, found, needed, due])⟩)
        | some deadline =>
          have made : receive registry budget now m =
              await handler.schema now deadline now keys := by
            simp [receive, found, needed, due]
          rw [made]
          rcases await_cases handler.schema now deadline now keys with loads | looks
          · exact .inr (.inl loads)
          · exact .inr (.inr ⟨waits, .inr looks⟩)

/-- Everything that loading the record can lead to. -/
theorem onLoad_cases (schema : Schema) (m : Message) (current : Option Record) :
    (∃ record outcome, onLoad schema m (.ok current) = .writing record outcome ∧
      Resolution.Merges m current schema record outcome) ∨
    (onLoad schema m (.ok current) = .closing (.plain .stale) ∧
      ∃ record, current = some record ∧ m.emittedAt ≤ record.lastSyncedAt) ∨
    (∃ reasons, onLoad schema m (.ok current) =
        .closing (.failed (.malformedSnapshot m.key reasons)) ∧
      schema.check m.snapshot (!m.action.isDeletion) ≠ .valid) := by
  cases resolved : Resolution.resolve m current schema with
  | error error =>
    obtain ⟨unfit, reasons, rfl⟩ := Resolution.error_of_resolve resolved
    exact .inr (.inr ⟨reasons, by simp [onLoad, resolved], unfit⟩)
  | ok resolution =>
    cases resolution with
    | write record change =>
      exact .inl ⟨record, _, by simp only [onLoad, resolved], _, resolved, rfl⟩
    | stale stamp =>
      obtain ⟨record, there, asNew, -⟩ := Resolution.resolve_eq_stale_iff.1 resolved
      exact .inr (.inl ⟨by simp [onLoad, resolved], record, there, asNew⟩)
    | tombstone record => exact .inl ⟨record, _, by simp only [onLoad, resolved], _, resolved, rfl⟩

/-- Everything that a look for an entity can lead to. -/
theorem onProbe_cases (backoff : Backoff) (now : Instant) (w : DependencyWait)
    (answer : Except SyncError Bool) :
    (∃ error, onProbe backoff now w answer = .closing (.failed error)) ∨
    onProbe backoff now w answer = .loading w.schema ∨
    (∃ next, onProbe backoff now w answer = .probing next ∧ next.schema = w.schema) ∨
    (∃ missing waited, onProbe backoff now w answer = .closing (.timedOut missing waited)) ∨
    (∃ until_ next, onProbe backoff now w answer = .pausing until_ next ∧
      next.schema = w.schema) := by
  unfold onProbe
  split
  · exact .inl ⟨_, rfl⟩
  · rcases await_cases w.schema w.since w.deadline now w.later with loads | looks
    · exact .inr (.inl loads)
    · exact .inr (.inr (.inl looks))
  · split
    · exact .inr (.inr (.inr (.inl ⟨_, _, rfl⟩)))
    · exact .inr (.inr (.inr (.inr ⟨_, _, rfl, rfl⟩)))

/-- Everything that the write can lead to. -/
theorem onWrite_cases (outcome : Outcome) (answer : Except SyncError Upsert) :
    (∃ error, answer = .error error ∧ onWrite outcome answer = .closing (.failed error)) ∨
    (∃ upsert, answer = .ok upsert ∧ upsert.isWritten = false ∧
      onWrite outcome answer = .closing (.plain .stale)) ∨
    (∃ upsert, answer = .ok upsert ∧ upsert.isWritten = true ∧
      onWrite outcome answer = .closing (.plain outcome)) := by
  cases answer with
  | error error => exact .inl ⟨error, rfl, rfl⟩
  | ok upsert =>
    cases upsert with
    | stale current => exact .inr (.inl ⟨_, rfl, rfl, rfl⟩)
    | inserted => exact .inr (.inr ⟨_, rfl, rfl, rfl⟩)
    | replaced => exact .inr (.inr ⟨_, rfl, rfl, rfl⟩)

variable {σ : Type} {c : Consumer σ} {store : σ → Store}

/-- The phase that a step leads to, on a store. -/
theorem phase_step (on : c.OnStore store) (now : Instant) (desk : Desk σ) (d : Dispatch) :
    (d.step c now desk).2.phase =
      match d.phase with
      | .arrived => receive c.registry c.budget now d.message
      | .probing w => onProbe c.budget.backoff now w (c.backend.probe w.key desk.store).1
      | .pausing _ w => .probing w
      | .loading schema =>
        onLoad schema d.message (.ok ((store desk.store).load d.message.key))
      | .writing record outcome => onWrite outcome ((store desk.store).upsertIfNewer record).1
      | .closing ending =>
        match ending.letter? d.message with
        | none => .done (ending.result d.message)
        | some letter => .shelving letter (ending.result d.message)
      | .shelving _ result => .done result
      | .done result => .done result
      | .beyondClock => .beyondClock := by
  unfold step
  cases phase : d.phase with
  | loading schema => simp [on.load]
  | writing record outcome => simp [on.upsert]
  | closing ending => cases letter : ending.letter? d.message <;> simp [letter]
  | _ => simp [phase]

/-- Nobody has counted the message yet. -/
def Phase.isArrived : Phase → Bool
  | .arrived => true
  | _ => false

/-- The message is counted as received, and how its dispatch ended is not counted yet. -/
def Phase.isPending : Phase → Bool
  | .arrived => false
  | .shelving .. => false
  | .done _ => false
  | _ => true

theorem isPending_receive (registry : Registry) (budget : WaitBudget) (now : Instant) (m : Message) :
    (receive registry budget now m).isPending = true := by
  rcases receive_cases registry budget now m with ⟨made, -⟩ |
    ⟨schema, -, ⟨reasons, made⟩ | made | ⟨-, made | ⟨w, made, -⟩⟩⟩ <;> rw [made] <;> rfl

theorem isPending_onProbe (backoff : Backoff) (now : Instant) (w : DependencyWait)
    (answer : Except SyncError Bool) : (onProbe backoff now w answer).isPending = true := by
  rcases onProbe_cases backoff now w answer with ⟨error, made⟩ | made | ⟨next, made, -⟩ |
    ⟨missing, waited, made⟩ | ⟨until_, next, made, -⟩ <;> rw [made] <;> rfl

theorem isPending_onLoad (schema : Schema) (m : Message) (answer : Except SyncError (Option Record)) :
    (onLoad schema m answer).isPending = true := by
  cases answer with
  | error error => rfl
  | ok current =>
    rcases onLoad_cases schema m current with ⟨record, outcome, made, -⟩ | ⟨made, -⟩ |
      ⟨reasons, made, -⟩ <;> rw [made] <;> rfl

theorem isPending_onWrite (outcome : Outcome) (answer : Except SyncError Upsert) :
    (onWrite outcome answer).isPending = true := by
  rcases onWrite_cases outcome answer with ⟨error, -, made⟩ | ⟨upsert, -, -, made⟩ |
    ⟨upsert, -, -, made⟩ <;> rw [made] <;> rfl

theorem Phase.isArrived_of_isPending {phase : Phase} (pending : phase.isPending = true) :
    phase.isArrived = false := by
  cases phase <;> first | rfl | cases pending

theorem received_count (m : Message) (stats : Stats) (ending : Ending) :
    (ending.count m stats).received = stats.received := by
  cases ending with
  | plain outcome => cases outcome <;> rfl
  | timedOut missing waited =>
    simp only [Ending.count]
    split <;> rfl
  | failed error =>
    simp only [Ending.count]
    split <;> rfl

/-- The first step counts the message, and no other does. -/
theorem received_step (c : Consumer σ) (now : Instant) (desk : Desk σ) (d : Dispatch) :
    (d.step c now desk).1.stats.received = desk.stats.received + d.phase.isArrived.toNat ∧
      (d.step c now desk).2.phase.isArrived = false := by
  unfold step
  cases phase : d.phase with
  | arrived => exact ⟨rfl, Phase.isArrived_of_isPending (isPending_receive ..)⟩
  | probing w => exact ⟨rfl, Phase.isArrived_of_isPending (isPending_onProbe ..)⟩
  | pausing until_ w => exact ⟨rfl, rfl⟩
  | loading schema => exact ⟨rfl, Phase.isArrived_of_isPending (isPending_onLoad ..)⟩
  | writing record outcome => exact ⟨rfl, Phase.isArrived_of_isPending (isPending_onWrite ..)⟩
  | closing ending =>
    refine ⟨received_count .., ?_⟩
    dsimp only
    split <;> rfl
  | shelving letter result =>
    refine ⟨?_, rfl⟩
    dsimp only
    split <;> rfl
  | done result => exact ⟨rfl, by rw [phase]; rfl⟩
  | beyondClock => exact ⟨rfl, by rw [phase]; rfl⟩

/-! ### The phases a dispatch can be in -/

/-- The phase has to do with the schema of the handler that the message goes to. -/
def Phase.Fits (registry : Registry) (m : Message) : Phase → Prop
  | .probing w => registry.schemaFor? m = some w.schema
  | .pausing _ w => registry.schemaFor? m = some w.schema
  | .loading schema => registry.schemaFor? m = some schema
  | .writing record outcome => ∃ schema current, registry.schemaFor? m = some schema ∧
      Resolution.Merges m current schema record outcome
  | _ => True

theorem fits_receive (registry : Registry) (budget : WaitBudget) (now : Instant) (m : Message) :
    (receive registry budget now m).Fits registry m := by
  rcases receive_cases registry budget now m with ⟨made, -⟩ |
    ⟨schema, known, ⟨reasons, made⟩ | made | ⟨-, made | ⟨w, made, rfl⟩⟩⟩ <;> rw [made]
  · trivial
  · trivial
  · exact known
  · trivial
  · exact known

theorem fits_onProbe {registry : Registry} {m : Message} {w : DependencyWait}
    (known : registry.schemaFor? m = some w.schema) (backoff : Backoff) (now : Instant)
    (answer : Except SyncError Bool) : (onProbe backoff now w answer).Fits registry m := by
  rcases onProbe_cases backoff now w answer with ⟨error, made⟩ | made | ⟨next, made, same⟩ |
    ⟨missing, waited, made⟩ | ⟨until_, next, made, same⟩ <;> rw [made]
  · trivial
  · exact known
  · exact known.trans (congrArg some same.symm)
  · trivial
  · exact known.trans (congrArg some same.symm)

theorem fits_onLoad {registry : Registry} {m : Message} {schema : Schema}
    (known : registry.schemaFor? m = some schema) (answer : Except SyncError (Option Record)) :
    (onLoad schema m answer).Fits registry m := by
  cases answer with
  | error error => trivial
  | ok current =>
    rcases onLoad_cases schema m current with ⟨record, outcome, made, merges⟩ | ⟨made, -⟩ |
      ⟨reasons, made, -⟩ <;> rw [made]
    · exact ⟨schema, current, known, merges⟩
    · trivial
    · trivial

theorem fits_onWrite (registry : Registry) (m : Message) (outcome : Outcome)
    (answer : Except SyncError Upsert) : (onWrite outcome answer).Fits registry m := by
  rcases onWrite_cases outcome answer with ⟨error, -, made⟩ | ⟨upsert, -, -, made⟩ |
    ⟨upsert, -, -, made⟩ <;> rw [made] <;> trivial

/-- Every dispatch works with the schema of the handler that its message goes to. -/
theorem kept_fits (c : Consumer σ) :
    Crew.Kept c (fun _ => True) fun _ d => d.phase.Fits c.registry d.message where
  sound_step _ _ _ _ _ := trivial
  arrives _ _ _ := trivial
  own now desk d _ fits := by
    rw [message_step]
    unfold step
    cases phase : d.phase with
    | arrived => exact fits_receive ..
    | probing w =>
      rw [phase] at fits
      exact fits_onProbe fits ..
    | pausing until_ w =>
      rw [phase] at fits
      exact fits
    | loading schema =>
      rw [phase] at fits
      exact fits_onLoad fits _
    | writing record outcome => exact fits_onWrite ..
    | closing ending =>
      dsimp only
      split <;> trivial
    | shelving letter result => trivial
    | done result => rw [phase]; trivial
    | beyondClock => rw [phase]; trivial
  other _ _ _ _ _ fits _ := fits

/-- What is about to be written was merged just now into the record loaded. -/
theorem merges_of_writing_step (on : c.OnStore store) {now : Instant} {desk : Desk σ} {d : Dispatch}
    {record : Record} {outcome : Outcome}
    (writes : (d.step c now desk).2.phase = .writing record outcome) :
    ∃ schema, d.phase = .loading schema ∧
      Resolution.Merges d.message ((store desk.store).load d.message.key) schema record outcome := by
  rw [d.phase_step on] at writes
  cases phase : d.phase with
  | arrived =>
    simp only [phase] at writes
    rcases receive_cases c.registry c.budget now d.message with ⟨made, -⟩ |
      ⟨schema, -, ⟨reasons, made⟩ | made | ⟨-, made | ⟨w, made, -⟩⟩⟩ <;>
      simp [made] at writes
  | probing w =>
    simp only [phase] at writes
    rcases onProbe_cases c.budget.backoff now w (c.backend.probe w.key desk.store).1 with
      ⟨error, made⟩ | made | ⟨next, made, -⟩ | ⟨missing, waited, made⟩ | ⟨until_, next, made, -⟩ <;>
      simp [made] at writes
  | loading schema =>
    refine ⟨schema, rfl, ?_⟩
    simp only [phase] at writes
    rcases onLoad_cases schema d.message ((store desk.store).load d.message.key) with
      ⟨merged, reported, made, merges⟩ | ⟨made, -⟩ | ⟨reasons, made, -⟩
    · rw [made] at writes
      obtain ⟨rfl, rfl⟩ := Phase.writing.inj writes
      exact merges
    · simp [made] at writes
    · simp [made] at writes
  | writing merged reported =>
    simp only [phase] at writes
    rcases onWrite_cases reported ((store desk.store).upsertIfNewer merged).1 with
      ⟨error, -, made⟩ | ⟨upsert, -, -, made⟩ | ⟨upsert, -, -, made⟩ <;>
      simp [made] at writes
  | closing ending => cases letter : ending.letter? d.message <;> simp [phase, letter] at writes
  | _ => simp [phase] at writes

/-! ### When the result is decided -/

/-- What the dispatch gives, as soon as that is decided. -/
def verdict? (d : Dispatch) : Option DispatchResult :=
  match d.phase with
  | .closing ending => some (ending.result d.message)
  | .shelving _ result => some result
  | .done result => some result
  | _ => none

theorem verdict?_of_result? {d : Dispatch} {result : DispatchResult}
    (given : d.result? = some result) : d.verdict? = some result := by
  unfold result? at given
  unfold verdict?
  grind

/-- Once decided, the result stays, and the store is left alone. -/
theorem step_of_verdict? {d : Dispatch} {result : DispatchResult}
    (decided : d.verdict? = some result) (c : Consumer σ) (now : Instant) (desk : Desk σ) :
    (d.step c now desk).2.verdict? = some result ∧ (d.step c now desk).1.store = desk.store := by
  unfold verdict? at decided
  unfold step
  cases phase : d.phase with
  | closing ending =>
    obtain rfl : ending.result d.message = result := by simpa [phase] using decided
    constructor
    · dsimp only
      split <;> rfl
    · rfl
  | shelving letter given =>
    obtain rfl : given = result := by simpa [phase] using decided
    constructor
    · rfl
    · cases c.keepsLetters <;> rfl
  | done given =>
    obtain rfl : given = result := by simpa [phase] using decided
    exact ⟨by simp [verdict?, phase], rfl⟩
  | _ => simp [phase] at decided

end Dispatch

namespace Crew

variable {σ : Type} {c : Consumer σ}

/-- What is kept beside any state holds throughout every run. -/
theorem Kept.of_get? {holds : Dispatch → Prop} (kept : Kept c (fun _ => True) fun _ => holds)
    {moves : List (Move σ)} {s : σ} {id : Nat} {d : Dispatch}
    (found : (Crew.run c moves (opened s)).dispatches.get? id = some d) : holds d := by
  have within (move : Move σ) : Move.Within (fun _ _ => True) move := by
    cases move <;> simp [Move.Within]
  refine (kept.run ?_ (fun move _ => within move) trivial).2 id d found
  exact fun _ _ _ _ => ⟨trivial, fun _ still => still⟩

theorem fits_run {moves : List (Move σ)} {s : σ} {id : Nat} {d : Dispatch}
    (found : (run c moves (opened s)).dispatches.get? id = some d) :
    d.phase.Fits c.registry d.message :=
  (Dispatch.kept_fits c).of_get? found

/-- What is decided is what is given, whatever moves are made until then. -/
theorem result_of_verdict? {crew : Crew σ} {id : Nat} {d : Dispatch} {result : DispatchResult}
    (found : crew.dispatches.get? id = some d) (decided : d.verdict? = some result)
    (moves : List (Move σ)) {later : Dispatch}
    (there : (run c moves crew).dispatches.get? id = some later) {given : DispatchResult}
    (ended : later.result? = some given) : given = result := by
  have own (now : Instant) (desk : Desk σ) (d : Dispatch) (decided : d.verdict? = some result) :
      (d.step c now desk).2.verdict? = some result := (Dispatch.step_of_verdict? decided c now desk).1
  obtain ⟨same, found, still⟩ := get?_run_of_get? own moves found decided
  obtain rfl : same = later := Option.some.inj (found.symm.trans there)
  exact Option.some.inj ((Dispatch.verdict?_of_result? ended).symm.trans still)

end Crew

namespace Dispatch

variable {σ : Type} {c : Consumer σ}

/-! ### Dispatches that do not wait -/

/-- The dispatch waits for another entity, or would have to beyond the end of the clock. -/
def Phase.IsWaiting : Phase → Prop
  | .probing _ => True
  | .pausing .. => True
  | .beyondClock => True
  | _ => False

/-- How many more steps a dispatch makes at most, if it does not wait. -/
def Phase.stepsLeft : Phase → Nat
  | .loading _ => 4
  | .writing .. => 3
  | .closing _ => 2
  | .shelving .. => 1
  | .done _ => 0
  | _ => 5

theorem Phase.stepsLeft_le (phase : Phase) : phase.stepsLeft ≤ 5 := by
  cases phase <;> simp [stepsLeft]

theorem not_isWaiting_onLoad (schema : Schema) (m : Message)
    (answer : Except SyncError (Option Record)) :
    ¬ (onLoad schema m answer).IsWaiting ∧ (onLoad schema m answer).stepsLeft ≤ 3 := by
  cases answer with
  | error error => exact ⟨id, by simp [onLoad, Phase.stepsLeft]⟩
  | ok current =>
    rcases onLoad_cases schema m current with ⟨record, outcome, made, -⟩ | ⟨made, -⟩ |
      ⟨reasons, made, -⟩ <;> rw [made] <;> exact ⟨id, by simp [Phase.stepsLeft]⟩

theorem not_isWaiting_onWrite (outcome : Outcome) (answer : Except SyncError Upsert) :
    ¬ (onWrite outcome answer).IsWaiting ∧ (onWrite outcome answer).stepsLeft = 2 := by
  rcases onWrite_cases outcome answer with ⟨error, -, made⟩ | ⟨upsert, -, -, made⟩ |
    ⟨upsert, -, -, made⟩ <;> rw [made] <;> exact ⟨id, rfl⟩

/-- A dispatch that has begun and does not wait does not begin to, and has a step less to go after each step. -/
theorem step_of_going {d : Dispatch} (begun : d.phase.isArrived = false) (going : ¬ d.phase.IsWaiting)
    (c : Consumer σ) (now : Instant) (desk : Desk σ) :
    ¬ (d.step c now desk).2.phase.IsWaiting ∧
      (d.step c now desk).2.phase.stepsLeft ≤ d.phase.stepsLeft - 1 := by
  unfold step
  cases phase : d.phase with
  | loading schema => exact not_isWaiting_onLoad ..
  | writing record outcome =>
    obtain ⟨goes, left⟩ := not_isWaiting_onWrite outcome (c.backend.upsert record desk.store).1
    exact ⟨goes, Nat.le_of_eq left⟩
  | closing ending =>
    dsimp only
    split <;> exact ⟨id, by simp [Phase.stepsLeft]⟩
  | shelving letter result => exact ⟨id, by simp [Phase.stepsLeft]⟩
  | done result => simp [phase, Phase.IsWaiting, Phase.stepsLeft]
  | arrived => simp [phase, Phase.isArrived] at begun
  | _ => simp [phase, Phase.IsWaiting] at going

/-- A dispatch whose message waits for nothing does not begin to, and has a step less to go after each
step. -/
theorem step_of_not_waits {d : Dispatch} (prompt : ¬ c.registry.Waits d.message)
    (going : ¬ d.phase.IsWaiting) (now : Instant) (desk : Desk σ) :
    ¬ (d.step c now desk).2.phase.IsWaiting ∧
      (d.step c now desk).2.phase.stepsLeft ≤ d.phase.stepsLeft - 1 := by
  cases begun : d.phase.isArrived with
  | false => exact step_of_going begun going c now desk
  | true =>
    unfold step
    cases phase : d.phase with
    | arrived =>
      rcases receive_cases c.registry c.budget now d.message with ⟨made, -⟩ |
        ⟨schema, -, ⟨reasons, made⟩ | made | ⟨waits, -⟩⟩
      · simp [made, Phase.IsWaiting, Phase.stepsLeft]
      · simp [made, Phase.IsWaiting, Phase.stepsLeft]
      · simp [made, Phase.IsWaiting, Phase.stepsLeft]
      · exact absurd waits prompt
    | _ => simp [phase, Phase.isArrived] at begun

/-- A dispatch whose result is decided has begun and does not wait. -/
theorem going_of_verdict? {d : Dispatch} (decided : d.verdict?.isSome = true) :
    d.phase.isArrived = false ∧ ¬ d.phase.IsWaiting ∧ d.phase.stepsLeft ≤ 2 := by
  unfold verdict? at decided
  cases phase : d.phase <;> simp_all [Phase.isArrived, Phase.IsWaiting, Phase.stepsLeft]

/-- A dispatch whose message waits for nothing never waits. -/
theorem kept_going (c : Consumer σ) :
    Crew.Kept c (fun _ => True) fun _ d =>
      ¬ c.registry.Waits d.message → ¬ d.phase.IsWaiting where
  sound_step _ _ _ _ _ := trivial
  arrives _ _ _ _ := id
  own now desk d _ going := by
    rw [message_step]
    exact fun prompt => (step_of_not_waits prompt (going prompt) now desk).1
  other _ _ _ _ _ going _ := going

theorem ready_or_done {d : Dispatch} (going : ¬ d.phase.IsWaiting) (now : Instant) :
    d.ready now = true ∨ d.phase.stepsLeft = 0 := by
  unfold ready
  cases phase : d.phase <;> simp_all [Phase.IsWaiting, Phase.stepsLeft]

theorem result?_isSome_of_stepsLeft {d : Dispatch} (ended : d.phase.stepsLeft = 0) :
    d.result?.isSome = true := by
  unfold result?
  cases phase : d.phase <;> simp_all [Phase.stepsLeft]

end Dispatch

namespace Crew

variable {σ : Type} {c : Consumer σ}

/-- A dispatch that does not wait any more has ended once it has made the steps left to it, whatever else happened
between them. -/
theorem ends_of_going (going : Dispatch → Prop) (goes : ∀ d, going d → ¬ d.phase.IsWaiting)
    (own : ∀ now desk d, going d → going (Dispatch.step c now desk d).2 ∧
      (Dispatch.step c now desk d).2.phase.stepsLeft ≤ d.phase.stepsLeft - 1) (moves : List (Move σ))
    {crew : Crew σ} {id : Nat} {d : Dispatch} (found : crew.dispatches.get? id = some d) (holds : going d)
    (enough : d.phase.stepsLeft ≤ moves.countP (·.isStep id)) :
    ∃ later, (run c moves crew).dispatches.get? id = some later ∧ later.result?.isSome = true := by
  induction moves generalizing crew d with
  | nil => exact ⟨d, found, Dispatch.result?_isSome_of_stepsLeft (Nat.le_zero.1 enough)⟩
  | cons move rest ih =>
    have less (now : Instant) (desk : Desk σ) (e : Dispatch)
        (still : going e ∧ e.phase.stepsLeft ≤ d.phase.stepsLeft) :
        going (e.step c now desk).2 ∧ (e.step c now desk).2.phase.stepsLeft ≤ d.phase.stepsLeft := by
      obtain ⟨goes, left⟩ := own now desk e still.1
      exact ⟨goes, by omega⟩
    obtain ⟨later, there, goesOn, left⟩ := get?_next_of_get? (less _ _) move found ⟨holds, Nat.le_refl _⟩
    rw [List.countP_cons] at enough
    by_cases its : move.isStep id = true
    · -- its own step, which leaves one step less
      rw [if_pos its] at enough
      refine ih there goesOn (Nat.le_trans ?_ (Nat.sub_le_of_le_add enough))
      obtain ⟨n, rfl⟩ : ∃ n, move = .step n := by
        cases move <;> simp [Move.isStep] at its ⊢
      obtain rfl : n = id := by simpa [Move.isStep] using its
      rcases Dispatch.ready_or_done (goes d holds) crew.now with ready | ended
      · rw [next_step_of_ready c found ready, SortedMap.get?_insert_self] at there
        obtain rfl := Option.some.inj there
        exact (own crew.now crew.desk d holds).2
      · omega
    · rw [if_neg its] at enough
      exact ih there goesOn (by omega)

/-- A dispatch whose result is decided has ended once it has made two steps. -/
theorem ends_of_verdict? (c : Consumer σ) {moves : List (Move σ)} {crew : Crew σ} {id : Nat} {d : Dispatch}
    (found : crew.dispatches.get? id = some d) (decided : d.verdict?.isSome = true)
    (enough : 2 ≤ moves.countP (·.isStep id)) :
    ∃ later, (run c moves crew).dispatches.get? id = some later ∧ later.result?.isSome = true := by
  refine ends_of_going (c := c) (fun e => e.verdict?.isSome = true)
    (fun e still => (Dispatch.going_of_verdict? still).2.1) (fun now desk e still => ?_) moves found decided
    (Nat.le_trans (Dispatch.going_of_verdict? decided).2.2 enough)
  obtain ⟨begun, going, -⟩ := Dispatch.going_of_verdict? still
  obtain ⟨result, given⟩ := Option.isSome_iff_exists.1 still
  exact ⟨by rw [(Dispatch.step_of_verdict? given c now desk).1]; rfl,
    (Dispatch.step_of_going begun going c now desk).2⟩

/-- A dispatch that waits for nothing has ended once it has made five steps. -/
theorem ends_after_receive {before rest : List (Move σ)} {s : σ} {id : Nat} {m : Message}
    (prompt : ∀ d, (run c (before ++ .receive id m :: rest) (opened s)).dispatches.get? id = some d →
      ¬ c.registry.Waits d.message) (enough : 5 ≤ rest.countP (·.isStep id)) :
    ∃ d, (run c (before ++ .receive id m :: rest) (opened s)).dispatches.get? id = some d ∧
      d.result?.isSome = true := by
  rw [List.append_cons, run_append] at prompt ⊢
  obtain ⟨d, there⟩ := exists_get?_receive c (run c before (opened s)) id m
  have found : (run c (before ++ [.receive id m]) (opened s)).dispatches.get? id = some d := by
    rw [run_append, run_cons, run_nil, there]
  have own (now : Instant) (desk : Desk σ) (e : Dispatch) (same : e.message = d.message) :
      (e.step c now desk).2.message = d.message := (e.message_step now desk).trans same
  obtain ⟨last, still, same⟩ := get?_run_of_get? own rest found rfl
  have free : ¬ c.registry.Waits d.message := same ▸ prompt last still
  refine ends_of_going (fun e => e.message = d.message ∧ ¬ e.phase.IsWaiting) (fun e going => going.2) ?_ rest
    found ⟨rfl, (Dispatch.kept_going c).of_get? found free⟩ (Nat.le_trans d.phase.stepsLeft_le enough)
  intro now desk e ⟨same, going⟩
  obtain ⟨goes, left⟩ := Dispatch.step_of_not_waits (same ▸ free) going now desk
  exact ⟨⟨(e.message_step now desk).trans same, goes⟩, left⟩

end Crew

end Replica

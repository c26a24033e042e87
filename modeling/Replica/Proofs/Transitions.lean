import Replica.Proofs.Atomicity
/-! What a dispatch reports is what it did to the records. While nobody else writes, a dispatch finds at
its write the record that it loaded, so the write, if it is made, is the merge of the message into the
records as they were, and the outcome reported is that merge's. Every other result is reported by
dispatches that never changed a record. Read the other way round, the records before and after tell
which outcome is reported. -/
namespace Replica

namespace Outcome

/-- The outcome is that of a record written. -/
def writes : Outcome → Bool
  | applied _ => true
  | noop => true
  | _ => false

theorem state_of_writes {outcome : Outcome} (writes : outcome.writes = true) :
    outcome.state = .applied := by
  cases outcome <;> first | rfl | cases writes

end Outcome

/-- A record with a smaller stamp was replaced, and this was and is the deletion mark. -/
def Replaced (was is_ : Option Record) (wasDeleted isDeleted : Bool) : Prop :=
  ∃ old new, was = some old ∧ is_ = some new ∧ old.lastSyncedAt < new.lastSyncedAt ∧
    old.isDeleted = wasDeleted ∧ new.isDeleted = isDeleted

/-- The outcome tells what became of the entity's record. -/
def Outcome.Tells (registry : Registry) (m : Message) (was is_ : Option Record) : Outcome → Prop
  | .applied .inserted => m.action.isDeletion = false ∧ was = none ∧
      ∃ schema record, registry.schemaFor? m = some schema ∧ is_ = some record ∧
        record.fields = schema.project m.snapshot
  | .applied .softDeleted => Replaced was is_ false true
  | .applied .restored => Replaced was is_ true false
  | .applied .updated => ∃ mark, Replaced was is_ mark mark
  | .noop => m.action.isDeletion = true ∧ was = none ∧
      ∃ record, is_ = some record ∧ record.isDeleted = true ∧ record.fields = ∅
  | _ => False

namespace Outcome.Tells

variable {registry : Registry} {m : Message} {was is_ : Option Record} {a b : Outcome}

/-- There is no record, or the one there is older than the one after it. -/
theorem changed (tells : a.Tells registry m was is_) :
    was = none ∧ is_ ≠ none ∨
      ∃ old new, was = some old ∧ is_ = some new ∧ old.lastSyncedAt < new.lastSyncedAt := by
  have replaced {wasDeleted isDeleted : Bool} (r : Replaced was is_ wasDeleted isDeleted) :
      ∃ old new, was = some old ∧ is_ = some new ∧ old.lastSyncedAt < new.lastSyncedAt := by
    obtain ⟨old, new, there, after, newer, -⟩ := r
    exact ⟨old, new, there, after, newer⟩
  cases a with
  | applied change =>
    cases change with
    | inserted =>
      obtain ⟨-, absent, _, record, -, rfl, -⟩ := tells
      exact .inl ⟨absent, by simp⟩
    | updated => exact .inr (replaced tells.choose_spec)
    | softDeleted => exact .inr (replaced tells)
    | restored => exact .inr (replaced tells)
  | noop =>
    obtain ⟨-, absent, record, rfl, -⟩ := tells
    exact .inl ⟨absent, by simp⟩
  | _ => exact tells.elim

theorem not_same (tells : a.Tells registry m was is_) : was ≠ is_ := by
  rintro rfl
  rcases tells.changed with ⟨absent, there⟩ | ⟨old, new, there, after, newer⟩
  · exact there absent
  · obtain rfl : old = new := Option.some.inj (there.symm.trans after)
    exact Stamp.not_le.2 newer (Stamp.le_refl _)

/-- The records before and after belong to one outcome only. -/
theorem unique (first : a.Tells registry m was is_) (second : b.Tells registry m was is_) : a = b := by
  unfold Tells at first second
  split at first <;> split at second <;> first | rfl | grind [Replaced]

end Outcome.Tells

namespace Resolution

variable {m : Message} {schema : Schema} {record : Record} {outcome : Outcome}

/-- The outcome of a merge tells what it replaces and by what. -/
theorem Merges.tells {registry : Registry} (known : registry.schemaFor? m = some schema)
    {current : Option Record} (merges : Merges m current schema record outcome) :
    outcome.writes = true ∧ outcome.Tells registry m current (some record) := by
  cases current with
  | none =>
    obtain ⟨deletion, rfl, rfl⟩ | ⟨lives, -, rfl, rfl⟩ := merges_none_iff.1 merges
    · exact ⟨rfl, deletion, rfl, _, rfl, by simp [recordOf, deletedAfter, deletion], rfl⟩
    · exact ⟨rfl, lives, rfl, schema, _, known, rfl, rfl⟩
  | some old =>
    obtain ⟨newer, -, rfl, rfl⟩ := merges_some_iff.1 merges
    have replaced : Replaced (some old) (some (recordOf m schema (fieldsOver m schema old.fields)))
        old.isDeleted (deletedAfter m schema) := ⟨old, _, rfl, rfl, newer, rfl, rfl⟩
    cases was : old.isDeleted <;> cases is_ : deletedAfter m schema <;> rw [was, is_] at replaced
    · exact ⟨rfl, false, replaced⟩
    · exact ⟨rfl, replaced⟩
    · exact ⟨rfl, replaced⟩
    · exact ⟨rfl, true, replaced⟩

end Resolution

namespace Dispatch

variable {σ : Type} {c : Consumer σ} {store : σ → Store} {registry : Registry} {base records : Records}

/-! ### What a dispatch alone does to the records -/

/-- What a dispatch that gives this result has done to the records: nothing, and the result is of no
write, or it has written the merge of its message into the record there, newer than that, and gives the
outcome of the merge. -/
def Effect (registry : Registry) (m : Message) (base records : Records) (result : DispatchResult) : Prop :=
  (records = base ∧ ∀ outcome, result = .ok outcome → outcome.writes = false) ∨
    ∃ outcome schema record, result = .ok outcome ∧ registry.schemaFor? m = some schema ∧
      Resolution.Merges m (SortedMap.get? base m.key) schema record outcome ∧
      base.IsNewer record ∧ records = SortedMap.insert base record.key record

/-- The dispatch has had its effect on the records once its result is decided, and none before; and what
it is about to write is the merge into the record there. -/
structure InEffect (registry : Registry) (base records : Records) (d : Dispatch) : Prop where
  decided : ∀ result, d.verdict? = some result → Effect registry d.message base records result
  undecided : d.verdict? = none → records = base
  writing : ∀ record outcome, d.phase = .writing record outcome → ∃ schema,
    registry.schemaFor? d.message = some schema ∧
      Resolution.Merges d.message (SortedMap.get? base d.message.key) schema record outcome

/-- The message has not been merged yet, nor has the dispatch ended without a merge. -/
def Phase.isUnmerged : Phase → Bool
  | .writing .. => false
  | .closing _ => false
  | .shelving .. => false
  | .done _ => false
  | _ => true

theorem inEffect_of_unmerged {d : Dispatch} (same : records = base)
    (unmerged : d.phase.isUnmerged = true) : InEffect registry base records d where
  decided result decided := by
    unfold verdict? at decided
    cases phase : d.phase <;> simp [phase, Phase.isUnmerged] at decided unmerged
  undecided _ := same
  writing record outcome phase := by simp [phase, Phase.isUnmerged] at unmerged

/-- A dispatch that ends in any way but with the outcome of a write has left the records alone. -/
theorem inEffect_of_closing {d : Dispatch} {ending : Ending} (same : records = base)
    (phase : d.phase = .closing ending)
    (quiet : ∀ outcome, ending = .plain outcome → outcome.writes = false) :
    InEffect registry base records d where
  decided result decided := by
    simp only [verdict?, phase, Option.some.injEq] at decided
    refine .inl ⟨same, fun outcome given => ?_⟩
    by_contra writes
    rw [Bool.not_eq_false] at writes
    have plain := Ending.eq_plain_of_result (decided.trans given) (Outcome.state_of_writes writes)
    simp [quiet outcome plain] at writes
  undecided open_ := by simp [verdict?, phase] at open_
  writing record outcome writes := by simp [phase] at writes

theorem inEffect_of_receive {budget : WaitBudget} {now : Instant} {d : Dispatch} (same : records = base)
    (phase : d.phase = receive registry budget now d.message) : InEffect registry base records d := by
  rcases receive_cases registry budget now d.message with ⟨ends, -⟩ |
    ⟨schema, -, ⟨reasons, ends⟩ | goes | ⟨-, goes | ⟨w, goes, -⟩⟩⟩
  · refine inEffect_of_closing same (phase.trans ends) fun outcome plain => ?_
    obtain rfl := Ending.plain.inj plain
    rfl
  · exact inEffect_of_closing same (phase.trans ends) (by simp)
  · exact inEffect_of_unmerged same (by simp [phase, goes, Phase.isUnmerged])
  · exact inEffect_of_unmerged same (by simp [phase, goes, Phase.isUnmerged])
  · exact inEffect_of_unmerged same (by simp [phase, goes, Phase.isUnmerged])

theorem inEffect_of_onProbe {backoff : Backoff} {now : Instant} {w : DependencyWait}
    {answer : Except SyncError Bool} {d : Dispatch} (same : records = base)
    (phase : d.phase = onProbe backoff now w answer) : InEffect registry base records d := by
  rcases onProbe_cases backoff now w answer with ⟨error, ends⟩ | goes | ⟨next, goes, -⟩ |
    ⟨missing, waited, ends⟩ | ⟨until_, next, goes, -⟩
  · exact inEffect_of_closing same (phase.trans ends) (by simp)
  · exact inEffect_of_unmerged same (by simp [phase, goes, Phase.isUnmerged])
  · exact inEffect_of_unmerged same (by simp [phase, goes, Phase.isUnmerged])
  · exact inEffect_of_closing same (phase.trans ends) (by simp)
  · exact inEffect_of_unmerged same (by simp [phase, goes, Phase.isUnmerged])

/-- Loading the record only plans the merge into it. -/
theorem inEffect_of_onLoad {schema : Schema} {d : Dispatch}
    (known : registry.schemaFor? d.message = some schema)
    (phase : d.phase = onLoad schema d.message (.ok (SortedMap.get? base d.message.key))) :
    InEffect registry base base d := by
  rcases onLoad_cases schema d.message (SortedMap.get? base d.message.key) with
    ⟨record, outcome, goes, merges⟩ | ⟨ends, -⟩ | ⟨reasons, ends, -⟩
  · rw [goes] at phase
    refine ⟨fun result decided => ?_, fun _ => rfl, fun other reported writes => ?_⟩
    · simp [verdict?, phase] at decided
    · obtain ⟨rfl, rfl⟩ := Phase.writing.inj (phase.symm.trans writes)
      exact ⟨schema, known, merges⟩
  · refine inEffect_of_closing rfl (phase.trans ends) fun outcome plain => ?_
    obtain rfl := Ending.plain.inj plain
    rfl
  · exact inEffect_of_closing rfl (phase.trans ends) (by simp)

/-- The write is made, and reported as the merge planned it, or it fails or comes too late and changes
nothing. -/
theorem inEffect_of_onWrite {s : Store} {schema : Schema} {record : Record} {outcome : Outcome}
    {d : Dispatch} (known : registry.schemaFor? d.message = some schema)
    (merges : Resolution.Merges d.message (SortedMap.get? s.records d.message.key) schema record outcome)
    (phase : d.phase = onWrite outcome (s.upsertIfNewer record).1) :
    InEffect registry s.records (s.upsertIfNewer record).2.records d := by
  rcases s.upsertIfNewer_cases record with ⟨failed, same⟩ | ⟨done, written⟩
  · rw [failed] at phase
    exact inEffect_of_closing same phase (by simp)
  · rw [done] at phase
    rcases s.records.upsert_cases record with ⟨newer, isWritten, inserted⟩ | ⟨current, -, -, late⟩
    · -- the write is made
      have ends : onWrite outcome (.ok (s.records.upsert record).1) = .closing (.plain outcome) := by
        rcases onWrite_cases outcome (.ok (s.records.upsert record).1) with ⟨error, failed, -⟩ |
          ⟨upsert, same, tooLate, -⟩ | ⟨upsert, -, -, ends⟩
        · cases failed
        · obtain rfl := Except.ok.inj same
          simp [isWritten] at tooLate
        · exact ends
      rw [ends] at phase
      refine ⟨fun result decided => ?_, fun open_ => ?_, fun _ _ writes => ?_⟩
      · simp only [verdict?, phase, Option.some.injEq] at decided
        exact .inr ⟨outcome, schema, record, decided.symm, known, merges, newer, written.trans inserted⟩
      · simp [verdict?, phase] at open_
      · simp [phase] at writes
    · rw [late] at phase written
      refine inEffect_of_closing written phase fun outcome plain => ?_
      obtain rfl := Ending.plain.inj plain
      rfl

/-- One step of the dispatch, on the records that it has had its effect on so far. -/
theorem inEffect_step (on : c.OnStore store) (now : Instant) {desk : Desk σ} {d : Dispatch}
    (fits : d.phase.Fits c.registry d.message)
    (effect : InEffect c.registry base (store desk.store).records d) :
    InEffect c.registry base (store (d.step c now desk).1.store).records (d.step c now desk).2 := by
  have made := d.phase_step on now desk
  have kept := d.store_step on now desk
  have message := d.message_step (c := c) now desk
  cases decided : d.verdict? with
  | some result =>
    -- the effect is had, and nothing changes any more
    obtain ⟨still, alone⟩ := step_of_verdict? decided c now desk
    refine ⟨fun given same => ?_, fun open_ => ?_, fun record outcome writes => ?_⟩
    · obtain rfl := Option.some.inj (still.symm.trans same)
      rw [message, alone]
      exact effect.decided result decided
    · simp [still] at open_
    · simp [verdict?, writes] at still
  | none =>
    obtain rfl := effect.undecided decided
    cases phase : d.phase with
    | arrived =>
      simp only [phase] at made kept
      exact inEffect_of_receive (by rw [kept]) (by rw [made, message])
    | probing w =>
      simp only [phase] at made kept
      exact inEffect_of_onProbe (by rw [kept]) made
    | pausing until_ w =>
      simp only [phase] at made kept
      exact inEffect_of_unmerged (by rw [kept]) (by simp [made, Phase.isUnmerged])
    | loading schema =>
      rw [phase] at fits
      simp only [phase, ← message] at made kept fits
      rw [kept]
      exact inEffect_of_onLoad fits made
    | writing record outcome =>
      obtain ⟨schema, known, merges⟩ := effect.writing record outcome phase
      simp only [phase] at made kept
      rw [← message] at known merges
      rw [kept]
      exact inEffect_of_onWrite known merges made
    | beyondClock =>
      simp only [phase] at made kept
      exact inEffect_of_unmerged (by rw [kept]) (by simp [made, Phase.isUnmerged])
    | _ => simp [verdict?, phase] at decided

/-- Of the entities only that of the message is concerned. -/
theorem Effect.get?_of_ne {m : Message} {result : DispatchResult}
    (effect : Effect registry m base records result) {key : EntityKey} (other : key ≠ m.key) :
    SortedMap.get? records key = SortedMap.get? base key := by
  rcases effect with ⟨rfl, -⟩ | ⟨outcome, schema, record, -, -, merges, -, rfl⟩
  · rfl
  · exact SortedMap.get?_insert_of_ne _ _ (merges.key_eq ▸ other)

theorem Effect.records_eq {m : Message} {result : DispatchResult}
    (effect : Effect registry m base records result)
    (quiet : ∀ outcome, result = .ok outcome → outcome.writes = false) : records = base := by
  rcases effect with ⟨same, -⟩ | ⟨outcome, schema, record, reported, known, merges, -⟩
  · exact same
  · have wrote := (merges.tells known).1
    simp [quiet outcome reported] at wrote

/-- The outcome of a write is given just if it tells what became of the record. -/
theorem Effect.tells_iff {m : Message} {result : DispatchResult}
    (effect : Effect registry m base records result) {outcome : Outcome} (writes : outcome.writes = true) :
    result = .ok outcome ↔
      outcome.Tells registry m (SortedMap.get? base m.key) (SortedMap.get? records m.key) := by
  rcases effect with ⟨rfl, quiet⟩ | ⟨reported, schema, record, rfl, known, merges, newer, rfl⟩
  · constructor
    · rintro rfl
      simp [quiet outcome rfl] at writes
    · exact fun tells => absurd rfl tells.not_same
  · have told := (merges.tells known).2
    rw [← merges.key_eq, SortedMap.get?_insert_self, merges.key_eq]
    constructor
    · intro same
      obtain rfl := Except.ok.inj same
      exact told
    · exact fun tells => congrArg Except.ok (told.unique tells)

/-- What is written has the stamp of the message. -/
theorem Effect.lastSyncedAt_eq {m : Message} {outcome : Outcome}
    (effect : Effect registry m base records (.ok outcome)) (writes : outcome.writes = true) :
    ∃ record, SortedMap.get? records m.key = some record ∧ record.lastSyncedAt = m.emittedAt := by
  rcases effect with ⟨-, quiet⟩ | ⟨reported, schema, record, -, -, merges, -, rfl⟩
  · simp [quiet outcome rfl] at writes
  · exact ⟨record, by rw [← merges.key_eq, SortedMap.get?_insert_self], merges.lastSyncedAt_eq⟩

end Dispatch

namespace Crew

variable {σ : Type} {c : Consumer σ} {store : σ → Store}

/-- While these moves are made, only this dispatch changes records. -/
def Alone (c : Consumer σ) (store : σ → Store) (id : Nat) : List (Move σ) → Crew σ → Prop
  | [], _ => True
  | move :: rest, crew =>
    (move.isStep id = false → (next c crew move).records store = crew.records store) ∧
      Alone c store id rest (next c crew move)

instance (c : Consumer σ) (store : σ → Store) (id : Nat) :
    (moves : List (Move σ)) → (crew : Crew σ) → Decidable (Alone c store id moves crew)
  | [], _ => inferInstanceAs (Decidable True)
  | move :: rest, crew =>
    have : Decidable (Alone c store id rest (next c crew move)) := instDecidableAlone c store id rest _
    inferInstanceAs (Decidable (_ ∧ _))

/-- A dispatch changes by its own steps only. -/
theorem get?_next_of_isStep_eq_false {crew : Crew σ} {move : Move σ} {id : Nat} {d : Dispatch}
    (found : crew.dispatches.get? id = some d) (other : move.isStep id = false) :
    (next c crew move).dispatches.get? id = some d := by
  rcases next_cases c crew move with same | ⟨n, m, rfl, free, made⟩ | ⟨n, e, rfl, -, -, made⟩ |
    ⟨time, rfl, made⟩ | ⟨f, rfl, made⟩
  · rw [same, found]
  · have different : id ≠ n := by
      rintro rfl
      simp [found] at free
    rw [made, SortedMap.get?_insert_of_ne _ _ different, found]
  · have different : id ≠ n := by
      rintro rfl
      simp [Move.isStep] at other
    rw [made, SortedMap.get?_insert_of_ne _ _ different, found]
  · rw [made, found]
  · rw [made, found]

/-- What a dispatch does to the records is all that is done to them, while it is alone. -/
theorem inEffect_run (on : c.OnStore store) {base : Records} {id : Nat} {moves : List (Move σ)}
    {crew : Crew σ} (alone : Alone c store id moves crew) {d : Dispatch}
    (found : crew.dispatches.get? id = some d) (fits : d.phase.Fits c.registry d.message)
    (effect : d.InEffect c.registry base (crew.records store)) :
    ∃ e, (run c moves crew).dispatches.get? id = some e ∧ e.message = d.message ∧
      e.InEffect c.registry base ((run c moves crew).records store) := by
  induction moves generalizing crew d with
  | nil => exact ⟨d, found, rfl, effect⟩
  | cons move rest ih =>
    obtain ⟨first, later⟩ := alone
    cases own : move.isStep id with
    | false =>
      exact ih later (get?_next_of_isStep_eq_false found own) fits (first own ▸ effect)
    | true =>
      obtain ⟨n, rfl⟩ : ∃ n, move = .step n := by
        cases move <;> simp [Move.isStep] at own ⊢
      obtain rfl : n = id := by simpa [Move.isStep] using own
      by_cases ready : d.ready crew.now = true
      · rw [next_step_of_ready c found ready] at later
        obtain ⟨e, there, same, done⟩ := ih later (SortedMap.get?_insert_self ..)
          ((Dispatch.kept_fits c).own crew.now crew.desk d trivial fits)
          (Dispatch.inEffect_step on crew.now fits effect)
        rw [run_cons, next_step_of_ready c found ready]
        exact ⟨e, there, same.trans (d.message_step ..), done⟩
      · have stays : next c crew (.step n) = crew := by simp [next, found, ready]
        rw [run_cons, stays]
        exact ih (stays ▸ later) found fits effect

/-- A dispatch that gives the result of no write never changes a record, whatever others do meanwhile. -/
theorem records_eq_of_not_writes (on : c.OnStore store) (s : σ) {first rest : List (Move σ)} {id : Nat}
    {d : Dispatch} {result : DispatchResult}
    (found : (run c (first ++ .step id :: rest) (opened s)).dispatches.get? id = some d)
    (given : d.result? = some result)
    (quiet : ∀ outcome, result = .ok outcome → outcome.writes = false) :
    (run c (first ++ [.step id]) (opened s)).records store = (run c first (opened s)).records store := by
  rw [run_append, run_cons] at found
  rw [run_append, run_cons, run_nil]
  apply SortedMap.ext_get?
  intro key
  by_contra changed
  have keeps : KeepsRecords store (.step id) := trivial
  obtain ⟨n, e, record, outcome, same, there, -, writes, -, -, reports⟩ :=
    merge_of_changed on s keeps changed
  obtain rfl := Move.step.inj same
  have fits := fits_run there
  rw [writes] at fits
  obtain ⟨schema, current, known, merges⟩ := fits
  have reported : result = .ok outcome := result_of_verdict? reports rfl rest found given
  have wrote := (merges.tells known).1
  simp [quiet outcome reported] at wrote

/-- A dispatch has its message merged, or ends without a merge, while nobody else changes a record. Of the
records before and after, only that of its message's entity may differ; whatever result is not that of
a write leaves that alone too, and no step of such a dispatch ever changes a record, whatever others do.
A first record, a deletion mark for an entity never seen, and the three ways to replace a record are
each reported exactly if they are what became of the record, and what is written has the message's
stamp. -/
theorem reported_iff_made (on : c.OnStore store) (s : σ) {before middle later : List (Move σ)} {id : Nat}
    {d e f : Dispatch} {result : DispatchResult}
    (found : (run c before (opened s)).dispatches.get? id = some d)
    (unmerged : d.phase.isUnmerged = true) (alone : Alone c store id middle (run c before (opened s)))
    (there : (run c (before ++ middle) (opened s)).dispatches.get? id = some e)
    (decided : e.verdict?.isSome = true)
    (last : (run c (before ++ middle ++ later) (opened s)).dispatches.get? id = some f)
    (given : f.result? = some result) :
    let was := SortedMap.get? ((run c before (opened s)).records store)
    let is_ := SortedMap.get? ((run c (before ++ middle) (opened s)).records store)
    (∀ key, key ≠ d.message.key → is_ key = was key) ∧
      ((∀ outcome, result = .ok outcome → outcome.writes = false) →
        (run c (before ++ middle) (opened s)).records store = (run c before (opened s)).records store ∧
          ∀ first rest, before ++ middle ++ later = first ++ .step id :: rest →
            (run c (first ++ [.step id]) (opened s)).records store =
              (run c first (opened s)).records store) ∧
      (result = .ok (.applied .inserted) ↔ d.message.action.isDeletion = false ∧
        was d.message.key = none ∧ ∃ schema record, c.registry.schemaFor? d.message = some schema ∧
          is_ d.message.key = some record ∧ record.fields = schema.project d.message.snapshot) ∧
      (result = .ok .noop ↔ d.message.action.isDeletion = true ∧ was d.message.key = none ∧
        ∃ record, is_ d.message.key = some record ∧ record.isDeleted = true ∧ record.fields = ∅) ∧
      (result = .ok (.applied .softDeleted) ↔
        Replaced (was d.message.key) (is_ d.message.key) false true) ∧
      (result = .ok (.applied .restored) ↔
        Replaced (was d.message.key) (is_ d.message.key) true false) ∧
      (result = .ok (.applied .updated) ↔
        ∃ mark, Replaced (was d.message.key) (is_ d.message.key) mark mark) ∧
      ∀ outcome, result = .ok outcome → outcome.writes = true →
        ∃ record, is_ d.message.key = some record ∧ record.lastSyncedAt = d.message.emittedAt := by
  intro was is_
  obtain ⟨final, same, message, effects⟩ := inEffect_run on alone found (fits_run found)
    (Dispatch.inEffect_of_unmerged rfl unmerged)
  rw [← run_append] at same effects
  obtain rfl : final = e := Option.some.inj (same.symm.trans there)
  obtain ⟨verdict, settled⟩ := Option.isSome_iff_exists.1 decided
  have effect := effects.decided verdict settled
  -- what was decided then is what is given now
  rw [run_append] at last
  obtain rfl : result = verdict := result_of_verdict? there settled later last given
  rw [← run_append] at last
  rw [message] at effect
  refine ⟨fun key other => effect.get?_of_ne other, fun quiet => ⟨?_, fun first rest split => ?_⟩,
    effect.tells_iff rfl, effect.tells_iff rfl, effect.tells_iff rfl, effect.tells_iff rfl,
    effect.tells_iff rfl, ?_⟩
  · exact effect.records_eq quiet
  · exact records_eq_of_not_writes on s (split ▸ last) given quiet
  · rintro outcome rfl writes
    exact effect.lastSyncedAt_eq writes

section Samples

open Fixtures

/-- A company is created and deleted, and then a change is received. -/
def deletedBefore : List (Move Store) :=
  [.receive 0 (companyCreated "c-1" "Acme" (stamp 1))] ++ steps 0 4 ++
    [.receive 1 (acmeDeleted ∅ (stamp 2))] ++ steps 1 4 ++
    [.receive 2 (acmeUpdated (SortedMap.ofPairs [("name", .str "Acme Ltd")]) (stamp 3))]

/-- Between the load and the write of the change the creation is received once more, and is outdated. -/
def restoring : List (Move Store) :=
  steps 2 2 ++ [.receive 3 (companyCreated "c-1" "Acme" (stamp 1))] ++ steps 3 3 ++ steps 2 1

theorem reported_iff_made_restoring :
    (service.OnStore id ∧
      (∃ d, (run service deletedBefore (opened {})).dispatches.get? 2 = some d ∧
        d.phase.isUnmerged = true) ∧
      Alone service id 2 restoring (run service deletedBefore (opened {})) ∧
      (∃ e, (run service (deletedBefore ++ restoring) (opened {})).dispatches.get? 2 = some e ∧
        e.verdict?.isSome = true) ∧
      ∃ f, (run service (deletedBefore ++ restoring ++ steps 2 1) (opened {})).dispatches.get? 2 = some f ∧
        f.result? = some (.ok (.applied .restored))) ∧
    Replaced (SortedMap.get? ((run service deletedBefore (opened {})).records id) acme)
      (SortedMap.get? ((run service (deletedBefore ++ restoring) (opened {})).records id) acme)
      true false := by
  have alone : Alone service id 2 restoring (run service deletedBefore (opened {})) := by decide +kernel
  have told := reported_iff_made service_onStore {} rfl rfl alone rfl rfl
    (show (run service (deletedBefore ++ restoring ++ steps 2 1) (opened {})).dispatches.get? 2 = some _
      from rfl) rfl
  exact ⟨⟨service_onStore, ⟨_, rfl, rfl⟩, alone, ⟨_, rfl, rfl⟩, _, rfl, rfl⟩,
    told.2.2.2.2.2.1.1 rfl⟩

end Samples

end Crew

end Replica

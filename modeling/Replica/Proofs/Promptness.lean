import Replica.Proofs.Delays
import Replica.Proofs.Foresight
import Replica.Proofs.Journal
/-! Which messages cost time. A dispatch that nothing overlaps with is over at the moment at which it begins,
unless it waits in vain for an entity that is not there. Whatever is wrong with a message is found before that, so
one that is refused neither looked for an entity nor paused nor wrote. -/
namespace Replica

namespace Lone

/-! ### How a dispatch by itself goes on -/

section

variable {σ : Type} {c : Consumer σ} {s t u : Lone σ}

theorem goes_rightUnique (c : Consumer σ) : Relator.RightUnique (Goes c) := by
  intro s t u first second
  cases first with
  | step ready =>
    cases second with
    | step => rfl
    | rest pausing early =>
      simp only [Dispatch.ready, pausing, decide_eq_true_eq] at ready
      exact absurd ready (Nat.not_le.2 early)
  | rest pausing early =>
    cases second with
    | step ready =>
      simp only [Dispatch.ready, pausing, decide_eq_true_eq] at ready
      exact absurd ready (Nat.not_le.2 early)
    | rest same =>
      obtain ⟨rfl, -⟩ := Dispatch.Phase.pausing.inj (pausing.symm.trans same)
      rfl

/-- The dispatch has ended. -/
def IsOver (s : Lone σ) : Prop := s.dispatch.result?.isSome = true

theorem IsOver.not_goes (isOver : s.IsOver) : ¬ Goes c s t := by
  unfold IsOver Dispatch.result? at isOver
  intro goes
  cases goes with
  | step ready =>
    unfold Dispatch.ready at ready
    cases phase : s.dispatch.phase <;> simp_all
  | rest pausing => simp [pausing] at isOver

theorem IsOver.eq_of_reaches (isOver : s.IsOver) (reaches : Reaches c s t) : t = s := by
  cases reaches.cases_head with
  | inl same => exact same.symm
  | inr goes =>
    obtain ⟨_, first, -⟩ := goes
    exact absurd first isOver.not_goes

/-- A dispatch by itself ends in one way only. -/
theorem IsOver.unique (first : Reaches c s t) (isOver : t.IsOver) (second : Reaches c s u) (isOver' : u.IsOver) :
    t = u := by
  rcases Relation.ReflTransGen.total_of_right_unique (goes_rightUnique c) first second with later | later
  · exact (isOver.eq_of_reaches later).symm
  · exact isOver'.eq_of_reaches later

/-- A dispatch that has begun and does not wait ends at once. -/
theorem reaches_over_of_going (c : Consumer σ) (begun : s.dispatch.phase.isArrived = false)
    (going : ¬ s.dispatch.phase.IsWaiting) : ∃ t, Reaches c s t ∧ t.IsOver ∧ t.now = s.now := by
  generalize left : s.dispatch.phase.stepsLeft = steps
  induction steps using Nat.strongRecOn generalizing s with
  | ind steps fewer =>
    rcases Nat.eq_zero_or_pos steps with rfl | some
    · exact ⟨s, .refl, Dispatch.result?_isSome_of_stepsLeft left, rfl⟩
    · have ready := (Dispatch.ready_or_done going s.now).resolve_right (by omega)
      obtain ⟨goesOn, less⟩ := Dispatch.step_of_going begun going c s.now s.desk
      have begun := (Dispatch.received_step c s.now s.desk s.dispatch).2
      obtain ⟨t, reaches, isOver, same⟩ := fewer _ (Nat.lt_of_le_of_lt less (by omega))
        (s := ⟨s.now, (s.dispatch.step c s.now s.desk).1, (s.dispatch.step c s.now s.desk).2⟩) begun goesOn rfl
      exact ⟨t, .head (.step ready) reaches, isOver, same⟩

end

section Store

variable {c : Consumer Store} {now : Instant} {desk : Desk Store} {m : Message} {schema : Schema}

/-- A wait for some entities, on what is left of the time, is over at once if they are all there, or if there is no
time left. -/
theorem reaches_over_of_await (backend : c.backend = Store.backend)
    (rising : ∀ k, 0 < c.budget.backoff.delayAfter k) {since deadline : Instant} (fits : deadline < Instant.clockEnd)
    (early : now ≤ deadline) (keys : List EntityKey) :
    ∃ t, Reaches c ⟨now, desk, ⟨m, Dispatch.await schema since deadline now keys⟩⟩ t ∧ t.IsOver ∧
      (t.now = now ↔ (∀ key ∈ keys, desk.store.isLive key = true) ∨ deadline = now) := by
  induction keys with
  | nil =>
    obtain ⟨t, reaches, isOver, same⟩ :=
      reaches_over_of_going c (s := ⟨now, desk, ⟨m, .loading schema⟩⟩) rfl id
    exact ⟨t, reaches, isOver, iff_of_true same (.inl (by simp))⟩
  | cons key later ih =>
    have same : now + (deadline - now) = deadline := Nat.add_sub_cancel' early
    let w : DependencyWait := { schema, since, deadline, wait := { start := now, deadline }, key, later }
    have awaits : Dispatch.await schema since deadline now (key :: later) = .probing w := by
      simp [Dispatch.await, same, w]
    rw [awaits]
    cases live : desk.store.isLive key with
    | true =>
      have looked : Goes c ⟨now, desk, ⟨m, .probing w⟩⟩ _ := .step rfl
      rw [Dispatch.step_probing backend, live] at looked
      obtain ⟨t, reaches, isOver, iff⟩ := ih
      exact ⟨t, .head looked reaches, isOver, by simpa [live] using iff⟩
    | false =>
      obtain ⟨last, reaches, -, iff, -⟩ := reaches_timedOut (m := m) (w := w) backend rising live fits
      obtain ⟨t, ends, isOver, atOnce⟩ :=
        reaches_over_of_going c (s := ⟨last, desk, ⟨m, .closing (.timedOut key (last - since))⟩⟩) rfl id
      have missing : ¬ ∀ other ∈ key :: later, desk.store.isLive other = true := by simp [live]
      refine ⟨t, reaches.trans ends, isOver, ?_⟩
      rw [atOnce, iff, or_iff_right missing]
      exact ⟨fun late => Nat.le_antisymm late early, Nat.le_of_eq⟩

end Store

end Lone

/-- Nothing keeps the message waiting: nobody handles it, its entity is or is marked as deleted, its handler asks for
nothing, its snapshot cannot be applied, or all that it refers to is there. -/
def Registry.Passes (registry : Registry) (store : Store) (m : Message) : Prop :=
  registry.handlerFor? m = none ∨ ∃ handler, registry.handlerFor? m = some handler ∧
    (m.action.isDeletion = true ∨ handler.schema.isSoftDeleted m.snapshot = true ∨ handler.requirements = [] ∨
      handler.schema.check m.snapshot true ≠ .valid ∨ ¬ Requirement.AllRead handler.requirements m.snapshot ∨
      ∀ keys, Requirement.references handler.requirements m.snapshot = .ok keys →
        ∀ key ∈ keys, store.isLive key = true)

/-- Whether something keeps a message waiting is seen from what it has to wait for. -/
theorem Registry.passes_cases {registry : Registry} {m : Message} {handler : Handler}
    (handled : registry.handlerFor? m = some handler) (store : Store) :
    Dispatch.dependencies handler m = .ok none ∧ registry.Passes store m ∨
      (∃ error, Dispatch.dependencies handler m = .error error ∧ registry.Passes store m) ∨
      ∃ keys, Dispatch.dependencies handler m = .ok (some keys) ∧
        (registry.Passes store m ↔ ∀ key ∈ keys, store.isLive key = true) := by
  rcases Dispatch.dependencies_cases handler m with ⟨needed, free⟩ |
    ⟨lives, unmarked, ⟨⟨reasons, refused⟩, fault⟩ | ⟨fits, keys, referred, needed⟩⟩
  · refine .inl ⟨needed, .inr ⟨handler, handled, ?_⟩⟩
    exact free.imp_right (.imp_right .inl)
  · refine .inr (.inl ⟨_, refused, .inr ⟨handler, handled, .inr (.inr (.inr ?_))⟩⟩)
    exact fault.imp_right .inl
  · refine .inr (.inr ⟨keys, needed, ?_⟩)
    have read := Requirement.allRead_iff.2 ⟨keys, referred⟩
    have asks : handler.requirements ≠ [] := by
      intro none_
      simp [Dispatch.dependencies, none_] at needed
    simp [Passes, handled, lives, unmarked, asks, fits, read, referred]

namespace Lone

variable {c : Consumer Store} {now : Instant} {m : Message}

/-- A dispatch by itself ends at the moment at which it begins, just if nothing keeps its message waiting or it has no
time to wait. -/
theorem reaches_over_of_arrived (backend : c.backend = Store.backend)
    (rising : ∀ k, 0 < c.budget.backoff.delayAfter k)
    (fits : now + c.budget.budgetFor m.isForceSync < Instant.clockEnd) (desk : Desk Store) :
    ∃ t, Reaches c ⟨now, desk, { message := m }⟩ t ∧ t.IsOver ∧
      (t.now = now ↔ c.registry.Passes desk.store m ∨ c.budget.budgetFor m.isForceSync = 0) := by
  have received : Goes c ⟨now, desk, { message := m }⟩ _ := .step rfl
  have atOnce (phase : Dispatch.Phase) (made : Dispatch.receive c.registry c.budget now m = phase)
      (begun : phase.isArrived = false) (going : ¬ phase.IsWaiting) (passes : c.registry.Passes desk.store m) :
      ∃ t, Reaches c ⟨now, desk, { message := m }⟩ t ∧ t.IsOver ∧
        (t.now = now ↔ c.registry.Passes desk.store m ∨ c.budget.budgetFor m.isForceSync = 0) := by
    simp only [Dispatch.step, made] at received
    obtain ⟨t, reaches, isOver, same⟩ := reaches_over_of_going c (s := ⟨now, _, ⟨m, phase⟩⟩) begun going
    exact ⟨t, .head received reaches, isOver, iff_of_true same (.inl passes)⟩
  cases handled : c.registry.handlerFor? m with
  | none =>
    exact atOnce (.closing (.plain .filtered)) (by simp [Dispatch.receive, handled]) rfl id (.inl handled)
  | some handler =>
    rcases Registry.passes_cases handled desk.store with ⟨needed, passes⟩ | ⟨error, refused, passes⟩ |
      ⟨keys, needed, passes_iff⟩
    · exact atOnce (.loading handler.schema) (by simp [Dispatch.receive, handled, needed]) rfl id passes
    · exact atOnce (.closing (.failed error)) (by simp [Dispatch.receive, handled, refused]) rfl id passes
    · have due : Instant.after? now (c.budget.budgetFor m.isForceSync) = some _ := if_pos fits
      have made : Dispatch.receive c.registry c.budget now m = Dispatch.await handler.schema now
          (now + c.budget.budgetFor m.isForceSync) now keys := by
        simp [Dispatch.receive, handled, needed, due]
      simp only [Dispatch.step, made] at received
      obtain ⟨t, reaches, isOver, iff⟩ := reaches_over_of_await (m := m) backend rising fits (Nat.le_add_right ..) keys
      refine ⟨t, .head received reaches, isOver, ?_⟩
      rw [iff, passes_iff]
      exact or_congr_right Nat.add_eq_left

end Lone

namespace Dispatch

/-! ### What a refused message never did -/

/-- The dispatch looks for an entity, pauses, or writes. -/
def Phase.Exerts : Phase → Prop
  | .probing _ => True
  | .pausing .. => True
  | .writing .. => True
  | _ => False

/-- The message is not going to be refused any more: its snapshot has passed the check that the merge repeats, it was
merged, or something else is decided. -/
def Phase.Cleared (m : Message) : Phase → Prop
  | .probing w => w.schema.check m.snapshot (!m.action.isDeletion) = .valid
  | .pausing _ w => w.schema.check m.snapshot (!m.action.isDeletion) = .valid
  | .loading schema => schema.check m.snapshot (!m.action.isDeletion) = .valid
  | .writing _ outcome => outcome.state = .applied
  | .closing ending => ending.result m ≠ refusal
  | .shelving _ result => result ≠ refusal
  | .done result => result ≠ refusal
  | _ => False

variable {c : Consumer Store} {now : Instant} {m : Message} {phase : Phase}

theorem cleared_await {schema : Schema} (fits : schema.check m.snapshot (!m.action.isDeletion) = .valid)
    (since deadline now : Instant) (keys : List EntityKey) : (await schema since deadline now keys).Cleared m := by
  cases keys <;> exact fits

theorem cleared_plain {outcome : Outcome} (merged : outcome.state = .applied) :
    (Phase.closing (.plain outcome)).Cleared m := by
  intro same
  obtain rfl := Except.ok.inj same
  cases merged

theorem cleared_onProbe (m : Message) {w : DependencyWait}
    (fits : w.schema.check m.snapshot (!m.action.isDeletion) = .valid) (b : Backoff) (now : Instant) (found : Bool) :
    (onProbe b now w (.ok found)).Cleared m := by
  cases found with
  | true => exact cleared_await fits ..
  | false =>
    simp only [onProbe]
    split
    · intro same
      cases forced : m.isForceSync <;> simp [Ending.result, forced] at same
    · exact fits

/-- Only a snapshot that does not pass is refused at the merge. -/
theorem cleared_onLoad {schema : Schema} (fits : schema.check m.snapshot (!m.action.isDeletion) = .valid)
    (current : Option Record) : (onLoad schema m (.ok current)).Cleared m := by
  rcases onLoad_cases schema m current with ⟨record, outcome, made, merges⟩ | ⟨made, -⟩ | ⟨reasons, -, unfit⟩
  · rw [made]
    exact merges.state_eq
  · rw [made]
    exact cleared_plain rfl
  · exact absurd fits unfit

/-- A write fails only if it was told to, and that is no refusal. -/
theorem cleared_onWrite {outcome : Outcome} (merged : outcome.state = .applied) (store : Store) (record : Record) :
    (onWrite outcome (store.upsertIfNewer record).1).Cleared m := by
  rcases onWrite_cases outcome (store.upsertIfNewer record).1 with ⟨error, failed, made⟩ | ⟨upsert, -, -, made⟩ |
    ⟨upsert, -, -, made⟩ <;> rw [made]
  · rcases store.upsertIfNewer_cases record with ⟨told, -⟩ | ⟨written, -⟩
    · obtain rfl := Except.error.inj (failed.symm.trans told)
      exact nofun
    · cases failed.symm.trans written
  · exact cleared_plain rfl
  · exact cleared_plain merged

theorem cleared_step (backend : c.backend = Store.backend) (cleared : phase.Cleared m) (desk : Desk Store) :
    (step c now desk ⟨m, phase⟩).2.phase.Cleared m := by
  cases phase with
  | probing w =>
    rw [step_probing backend]
    exact cleared_onProbe m cleared ..
  | pausing until_ w => exact cleared
  | loading schema =>
    rw [step_loading backend]
    exact cleared_onLoad cleared _
  | writing record outcome =>
    have answer : (c.backend.upsert record desk.store).1 = (desk.store.upsertIfNewer record).1 := by
      rw [backend]
      rfl
    simp only [step, answer]
    exact cleared_onWrite cleared desk.store record
  | closing ending =>
    simp only [step]
    split <;> exact cleared
  | shelving letter result => exact cleared
  | done result => exact cleared
  | _ => exact cleared.elim

theorem exerts_receive (registry : Registry) (budget : WaitBudget) (now : Instant)
    (exerts : (receive registry budget now m).Exerts) : (receive registry budget now m).Cleared m := by
  unfold receive at exerts ⊢
  cases handled : registry.handlerFor? m with
  | none => simp [handled, Phase.Exerts] at exerts
  | some handler =>
    rcases dependencies_cases handler m with ⟨needed, -⟩ | ⟨lives, -, ⟨⟨reasons, needed⟩, -⟩ | ⟨fits, keys, -, needed⟩⟩
    · simp [handled, needed, Phase.Exerts] at exerts
    · simp [handled, needed, Phase.Exerts] at exerts
    · cases due : Instant.after? now (budget.budgetFor m.isForceSync) with
      | none => simp [handled, needed, due, Phase.Exerts] at exerts
      | some deadline =>
        simp only [needed]
        exact cleared_await (by rw [lives]; exact fits) ..

/-- Before a dispatch looks for an entity, pauses or writes, its message is cleared. -/
theorem exerts_step (backend : c.backend = Store.backend) (rests : ¬ phase.Exerts) (desk : Desk Store)
    (exerts : (step c now desk ⟨m, phase⟩).2.phase.Exerts) : (step c now desk ⟨m, phase⟩).2.phase.Cleared m := by
  cases phase with
  | arrived => exact exerts_receive c.registry c.budget now exerts
  | loading schema =>
    rw [step_loading backend] at exerts ⊢
    rcases onLoad_cases schema m (desk.store.load m.key) with ⟨record, outcome, made, merges⟩ | ⟨made, -⟩ |
      ⟨reasons, made, -⟩ <;> simp only [made] at exerts ⊢
    · exact merges.state_eq
    · cases exerts
    · cases exerts
  | closing ending =>
    simp only [step] at exerts
    split at exerts <;> cases exerts
  | shelving letter result => cases exerts
  | done result => cases exerts
  | beyondClock => cases exerts
  | _ => exact absurd trivial rests

end Dispatch

namespace Crew

variable {c : Consumer Store} {crew : Crew Store} {id : Nat}

/-- Throughout a run, a message whose dispatch ever looked for an entity, paused or wrote is cleared. -/
theorem cleared_run (backend : c.backend = Store.backend) (free : crew.dispatches.get? id = none) (m : Message)
    (moves : List (Move Store)) :
    ∃ d, (run c (.receive id m :: moves) crew).dispatches.get? id = some d ∧ d.message = m ∧
      (d.phase.Cleared m ∨ ¬ d.phase.Exerts ∧
        ∀ s ∈ journal c id moves (next c crew (.receive id m)), ¬ s.dispatch.phase.Exerts) := by
  refine exists_journal_of_own (fun past d => d.message = m ∧
    (d.phase.Cleared m ∨ ¬ d.phase.Exerts ∧ ∀ s ∈ past, ¬ s.dispatch.phase.Exerts)) ?_ moves
    (get?_receive_of_free c free m) ⟨rfl, .inr ⟨not_false, by simp⟩⟩
  rintro now desk past ⟨m, phase⟩ ⟨rfl, cleared | ⟨rests, quiet⟩⟩
  · exact ⟨Dispatch.message_step .., .inl (Dispatch.cleared_step backend cleared desk)⟩
  · refine ⟨Dispatch.message_step .., ?_⟩
    by_cases exerts : (Dispatch.step c now desk ⟨m, phase⟩).2.phase.Exerts
    · exact .inl (Dispatch.exerts_step backend rests desk exerts)
    · refine .inr ⟨exerts, fun s among => ?_⟩
      rcases List.mem_append.1 among with earlier | last
      · exact quiet s earlier
      · obtain rfl := List.mem_singleton.1 last
        exact rests

/-- Exactly the right messages wait. A dispatch that nothing overlaps with ends, in one way only, and it ends at the
moment at which it begins just if nothing keeps its message waiting or it has no time to wait. And whatever overlaps
with it, no dispatch that ends with the message refused has ever looked for an entity, paused or written. -/
theorem waits_iff (backend : c.backend = Store.backend) (rising : ∀ k, 0 < c.budget.backoff.delayAfter k)
    (m : Message) :
    (∀ now desk, now + c.budget.budgetFor m.isForceSync < Instant.clockEnd →
      (∃ t, Lone.Reaches c ⟨now, desk, { message := m }⟩ t ∧ t.IsOver) ∧
        ∀ t, Lone.Reaches c ⟨now, desk, { message := m }⟩ t → t.IsOver →
          (t.now = now ↔ c.registry.Passes desk.store m ∨ c.budget.budgetFor m.isForceSync = 0)) ∧
      ∀ crew : Crew Store, ∀ id, crew.dispatches.get? id = none → ∀ moves d,
        (run c (.receive id m :: moves) crew).dispatches.get? id = some d →
          d.result? = some (.ok (.deadLettered .malformedSnapshot)) →
            ∀ s ∈ journal c id moves (next c crew (.receive id m)), ¬ s.dispatch.phase.Exerts := by
  constructor
  · intro now desk fits
    obtain ⟨t, reaches, isOver, iff⟩ := Lone.reaches_over_of_arrived backend rising fits desk
    refine ⟨⟨t, reaches, isOver⟩, fun u reached ended => ?_⟩
    rw [← Lone.IsOver.unique reaches isOver reached ended, iff]
  · intro crew id free moves d found refused
    obtain ⟨e, there, rfl, cleared | ⟨-, quiet⟩⟩ := cleared_run backend free m moves
    · obtain rfl : e = d := Option.some.inj (there.symm.trans found)
      unfold Dispatch.result? at refused
      cases phase : e.phase <;> simp_all [Dispatch.Phase.Cleared]
    · exact quiet

section Samples

open Fixtures

/-- An employee of no company. -/
def hireNowhere : Message := { hire with snapshot := SortedMap.ofPairs [("name", .str "Ada")] }

/-- While nothing is known of the company, its employee waits and one of no company is refused. -/
theorem waits_iff_hire :
    (service.backend = Store.backend ∧ (∀ k, 0 < service.budget.backoff.delayAfter k) ∧
      (opened {} : Crew Store).dispatches.get? 0 = none) ∧
    (∃ t, Lone.Reaches service ⟨0, { store := {} }, { message := hire }⟩ t ∧ t.IsOver ∧ t.now ≠ 0) ∧
      ((run service (.receive 0 hireNowhere :: steps 0 3) (opened {})).dispatches.get? 0).bind Dispatch.result? =
          some (.ok (.deadLettered .malformedSnapshot)) ∧
        ∀ s ∈ journal service 0 (steps 0 3) (next service (opened {}) (.receive 0 hireNowhere)),
          ¬ s.dispatch.phase.Exerts := by
  have rising := Backoff.delayAfter_pos (b := service.budget.backoff) (by decide) (by decide) Binary64.atLeast_two
  obtain ⟨prompt, -⟩ := waits_iff (c := service) rfl rising hire
  obtain ⟨-, refused⟩ := waits_iff (c := service) rfl rising hireNowhere
  refine ⟨⟨rfl, rising, rfl⟩, ?_, ?_⟩
  · obtain ⟨⟨t, reaches, isOver⟩, iff⟩ := prompt 0 { store := {} } (by decide)
    refine ⟨t, reaches, isOver, fun atOnce => ?_⟩
    rcases (iff t reaches isOver).1 atOnce with passes | none_
    · rcases Registry.passes_cases (show service.registry.handlerFor? hire = some employees from rfl) {} with
        ⟨needed, -⟩ | ⟨error, needed, -⟩ | ⟨keys, needed, passes_iff⟩
      · cases needed
      · cases needed
      · obtain rfl : [acme] = keys := Option.some.inj (Except.ok.inj needed)
        exact absurd (passes_iff.1 passes acme (by simp)) (by decide)
    · exact absurd none_ (by decide)
  · have ended : ((run service (.receive 0 hireNowhere :: steps 0 3) (opened {})).dispatches.get? 0).bind
        Dispatch.result? = some (.ok (.deadLettered .malformedSnapshot)) := by decide +kernel
    obtain ⟨d, found, result⟩ := Option.bind_eq_some_iff.1 ended
    exact ⟨ended, refused (opened {}) 0 rfl (steps 0 3) d found result⟩

end Samples

end Crew

end Replica

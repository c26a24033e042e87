import Replica.Proofs.Course
import Replica.Proofs.Ticks
import Mathlib.Logic.Relation
/-! A dispatch that nothing overlaps with. What it waits for cannot come, and what it finds cannot go; so it
does what a program does that never waits, and gives up by the end of its budget at the latest. -/
namespace Replica

/-- What came of some messages, one applied after another. -/
structure Tally where
  records : Records := ∅
  /-- Of each message set aside its entity, its stamp and the reason, in order. -/
  letters : List (EntityKey × Stamp × LetterReason) := []
  /-- The counters. No error is kept with them. -/
  stats : Stats := {}

namespace Tally

def refuse (t : Tally) (m : Message) : Tally :=
  { t with
    letters := t.letters ++ [(m.key, m.emittedAt, .malformedSnapshot)]
    stats := { t.stats with deadLettered := t.stats.deadLettered + 1 } }

/-- Something that the message refers to is not there. -/
def giveUp (t : Tally) (m : Message) : Tally :=
  if m.isForceSync then
    { t with
      letters := t.letters ++ [(m.key, m.emittedAt, .dependencyTimeout)]
      stats := { t.stats with escalated := t.stats.escalated + 1 } }
  else { t with stats := { t.stats with dropped := t.stats.dropped + 1 } }

def merge (t : Tally) (schema : Schema) (m : Message) : Tally :=
  match Resolution.resolve m (SortedMap.get? t.records m.key) schema with
  | .error _ => t.refuse m
  | .ok (.stale _) => { t with stats := { t.stats with stale := t.stats.stale + 1 } }
  | .ok (.tombstone record) =>
    { t with
      records := SortedMap.insert t.records record.key record
      stats := { t.stats with noop := t.stats.noop + 1 } }
  | .ok (.write record _) =>
    { t with
      records := SortedMap.insert t.records record.key record
      stats := { t.stats with applied := t.stats.applied + 1 } }

def isLive (t : Tally) (key : EntityKey) : Bool := (SortedMap.get? t.records key).any Record.isLive

def receive (t : Tally) : Tally := { t with stats := { t.stats with received := t.stats.received + 1 } }

/-- When a message that comes now is over: at once, or with the budget if something that it waits for is not
there. -/
def overAt (registry : Registry) (budget : WaitBudget) (now : Instant) (t : Tally) (m : Message) : Instant :=
  match registry.handlerFor? m with
  | none => now
  | some handler =>
    match Dispatch.dependencies handler m with
    | .ok (some keys) =>
      if keys.all t.isLive then now else Instant.ceilMillis (now + budget.budgetFor m.isForceSync)
    | _ => now

/-- Applies a message to what is there now. -/
def settle (registry : Registry) (t : Tally) (m : Message) : Tally :=
  match registry.handlerFor? m with
  | none => { t with stats := { t.stats with filtered := t.stats.filtered + 1 } }
  | some handler =>
    if m.action.isDeletion || handler.schema.isSoftDeleted m.snapshot || handler.requirements.isEmpty then
      t.merge handler.schema m
    else
      match handler.schema.check m.snapshot true, Requirement.references handler.requirements m.snapshot with
      | .valid, .ok keys => if keys.all t.isLive then t.merge handler.schema m else t.giveUp m
      | _, _ => t.refuse m

/-- One message of the file. -/
def apply (registry : Registry) (t : Tally) (m : Message) : Tally := t.receive.settle registry m

/-- The desk holds what the tally says. -/
structure Tells (t : Tally) (desk : Desk Store) : Prop where
  store : desk.store = { records := t.records }
  letters : desk.letters.map (fun l => (l.message.key, l.message.emittedAt, l.reason)) = t.letters
  stats : { desk.stats with lastError := none } = t.stats

theorem Tells.isLive {t : Tally} {desk : Desk Store} (tells : t.Tells desk) (key : EntityKey) :
    desk.store.isLive key = t.isLive key := by
  rw [tells.store]
  rfl

end Tally

namespace Dispatch

variable {c : Consumer Store} {now : Instant} {desk : Desk Store} {m : Message}

theorem step_probing (backend : c.backend = Store.backend) (w : DependencyWait) :
    step c now desk ⟨m, .probing w⟩ =
      (desk, ⟨m, onProbe c.budget.backoff now w (.ok (desk.store.isLive w.key))⟩) := by
  have answer : c.backend.probe w.key desk.store = (.ok (desk.store.isLive w.key), desk.store) := by
    rw [backend]
    rfl
  simp only [step, answer]

theorem step_loading (backend : c.backend = Store.backend) (schema : Schema) :
    step c now desk ⟨m, .loading schema⟩ = (desk, ⟨m, onLoad schema m (.ok (desk.store.load m.key))⟩) := by
  have answer : c.backend.load m.key desk.store = (.ok (desk.store.load m.key), desk.store) := by
    rw [backend]
    rfl
  simp only [step, answer]

/-- A record that is newer than what is there is written. -/
theorem step_writing (backend : c.backend = Store.backend) {record : Record} {outcome : Outcome}
    (works : desk.store.failingWrites = 0) (newer : Records.IsNewer desk.store.records record) :
    step c now desk ⟨m, .writing record outcome⟩ =
      ({ desk with store := { records := SortedMap.insert desk.store.records record.key record } },
        ⟨m, .closing (.plain outcome)⟩) := by
  rcases desk.store.records.upsert_cases record with ⟨-, written, after⟩ | ⟨old, found, late, -⟩
  · have answer : c.backend.upsert record desk.store = (.ok (desk.store.records.upsert record).1,
        { records := SortedMap.insert desk.store.records record.key record }) := by
      rw [backend, ← after]
      simp [Store.backend, Store.upsertIfNewer, works]
    rcases onWrite_cases outcome (.ok (desk.store.records.upsert record).1) with ⟨error, failed, -⟩ |
      ⟨upsert, same, stale, -⟩ | ⟨upsert, -, -, made⟩
    · cases failed
    · obtain rfl := Except.ok.inj same
      simp [written] at stale
    · simp only [step, answer, made]
  · exact absurd late (Stamp.not_le.2 (newer old found))

end Dispatch

/-- A dispatch by itself. -/
structure Lone (σ : Type) where
  now : Instant
  desk : Desk σ
  dispatch : Dispatch

namespace Lone

variable {σ : Type} {c : Consumer σ} {now : Instant} {desk : Desk σ} {m : Message}

/-- The dispatch makes a step, or the clock goes on until it can. -/
inductive Goes (c : Consumer σ) : Lone σ → Lone σ → Prop
  | step {s : Lone σ} (ready : s.dispatch.ready s.now = true) :
    Goes c s ⟨s.now, (s.dispatch.step c s.now s.desk).1, (s.dispatch.step c s.now s.desk).2⟩
  | rest {s : Lone σ} {until_ : Instant} {w : DependencyWait} (pausing : s.dispatch.phase = .pausing until_ w)
    (early : s.now < until_) : Goes c s { s with now := until_ }

abbrev Reaches (c : Consumer σ) : Lone σ → Lone σ → Prop := Relation.ReflTransGen (Goes c)

/-- An ending is counted and perhaps set aside. -/
theorem reaches_of_closing (keeps : c.keepsLetters = true) (ending : Ending) :
    Reaches c ⟨now, desk, ⟨m, .closing ending⟩⟩
      ⟨now, { desk with
          stats := ending.count m desk.stats
          letters := desk.letters ++ (ending.letter? m).toList },
        ⟨m, .done (ending.result m)⟩⟩ := by
  have counted : Goes c ⟨now, desk, ⟨m, .closing ending⟩⟩ _ := .step rfl
  cases set_aside : ending.letter? m with
  | none =>
    simp only [Dispatch.step, set_aside] at counted
    simpa using Relation.ReflTransGen.single counted
  | some letter =>
    simp only [Dispatch.step, set_aside] at counted
    have shelved : Goes c ⟨now, { desk with stats := ending.count m desk.stats },
        ⟨m, .shelving letter (ending.result m)⟩⟩ _ := .step rfl
    simp only [Dispatch.step, keeps, if_true, Desk.shelve] at shelved
    exact (Relation.ReflTransGen.single counted).tail shelved

/-- The dispatch ends in time, and what it leaves at the desk is what the tally says. -/
def EndsWith (c : Consumer Store) (s : Lone Store) (limit : Instant) (t : Tally) : Prop :=
  ∃ now desk outcome, Reaches c s ⟨now, desk, ⟨s.dispatch.message, .done (.ok outcome)⟩⟩ ∧ t.Tells desk ∧
    s.now ≤ now ∧ now ≤ limit

section Store

variable {c : Consumer Store} {desk : Desk Store} {t : Tally} {limit : Instant} {schema : Schema}

theorem EndsWith.step {phase : Dispatch.Phase} {after : Desk Store} {next : Dispatch.Phase}
    (ends : EndsWith c ⟨now, after, ⟨m, next⟩⟩ limit t)
    (made : Dispatch.step c now desk ⟨m, phase⟩ = (after, ⟨m, next⟩))
    (ready : Dispatch.ready now ⟨m, phase⟩ = true) : EndsWith c ⟨now, desk, ⟨m, phase⟩⟩ limit t := by
  obtain ⟨last, final, outcome, reaches, rest⟩ := ends
  have goes : Goes c ⟨now, desk, ⟨m, phase⟩⟩ _ := .step ready
  simp only [made] at goes
  exact ⟨last, final, outcome, .head goes reaches, rest⟩

theorem endsWith_plain (keeps : c.keepsLetters = true) (tells : t.Tells desk) (inTime : now ≤ limit)
    (outcome : Outcome) :
    EndsWith c ⟨now, desk, ⟨m, .closing (.plain outcome)⟩⟩ limit
      { t with stats := Ending.count m t.stats (.plain outcome) } := by
  refine ⟨now, _, outcome, reaches_of_closing keeps _, ⟨tells.store, ?_, ?_⟩, Nat.le_refl _, inTime⟩
  · simpa [Ending.letter?] using tells.letters
  · rw [← tells.stats]
    cases outcome <;> rfl

theorem endsWith_refused (keeps : c.keepsLetters = true) (tells : t.Tells desk) (inTime : now ≤ limit)
    (reasons : List String) :
    EndsWith c ⟨now, desk, ⟨m, .closing (.failed (.malformedSnapshot m.key reasons))⟩⟩ limit
      (t.refuse m) := by
  refine ⟨now, _, _, reaches_of_closing keeps _, ⟨tells.store, ?_, ?_⟩, Nat.le_refl _, inTime⟩
  · simp [Ending.letter?, SyncError.isRetryable, Ending.reasonFor, tells.letters, Tally.refuse]
  · rw [Tally.refuse, ← tells.stats]
    rfl

theorem endsWith_timedOut (keeps : c.keepsLetters = true) (tells : t.Tells desk) (inTime : now ≤ limit)
    (missing : EntityKey) (waited : Duration) :
    EndsWith c ⟨now, desk, ⟨m, .closing (.timedOut missing waited)⟩⟩ limit (t.giveUp m) := by
  refine ⟨now, _, if m.isForceSync then .escalated missing else .dropped missing,
    reaches_of_closing keeps _, ⟨?_, ?_, ?_⟩, Nat.le_refl _, inTime⟩
  · simp only [Tally.giveUp]
    split <;> exact tells.store
  · cases forced : m.isForceSync <;> simp [Ending.letter?, Tally.giveUp, forced, tells.letters]
  · rw [Tally.giveUp]
    cases forced : m.isForceSync <;> simp [Ending.count, forced, ← tells.stats]

/-- What is merged into the record there is newer, so the write takes effect. -/
theorem endsWith_writing (keeps : c.keepsLetters = true) (backend : c.backend = Store.backend)
    (tells : t.Tells desk) (inTime : now ≤ limit) {record : Record} {outcome : Outcome}
    (merges : Resolution.Merges m (SortedMap.get? t.records m.key) schema record outcome) :
    EndsWith c ⟨now, desk, ⟨m, .writing record outcome⟩⟩ limit
      { t with
        records := SortedMap.insert t.records record.key record
        stats := Ending.count m t.stats (.plain outcome) } := by
  have newer : Records.IsNewer t.records record := by
    intro old found
    rw [merges.key_eq] at found
    rw [found] at merges
    rw [merges.lastSyncedAt_eq]
    exact (Resolution.merges_some_iff.1 merges).1
  have told : ({ t with records := SortedMap.insert t.records record.key record } : Tally).Tells
      { desk with store := { records := SortedMap.insert t.records record.key record } } :=
    ⟨rfl, tells.letters, tells.stats⟩
  refine (endsWith_plain keeps told inTime outcome).step ?_ rfl
  have works : desk.store.failingWrites = 0 := by rw [tells.store]
  have records : desk.store.records = t.records := by rw [tells.store]
  rw [Dispatch.step_writing backend works (records ▸ newer), records]

theorem endsWith_loading (keeps : c.keepsLetters = true) (backend : c.backend = Store.backend)
    (tells : t.Tells desk) (inTime : now ≤ limit) :
    EndsWith c ⟨now, desk, ⟨m, .loading schema⟩⟩ limit (t.merge schema m) := by
  have loaded (phase : Dispatch.Phase)
      (made : Dispatch.onLoad schema m (.ok (SortedMap.get? t.records m.key)) = phase) :
      Dispatch.step c now desk ⟨m, .loading schema⟩ = (desk, ⟨m, phase⟩) := by
    have there : desk.store.load m.key = SortedMap.get? t.records m.key := by rw [tells.store, Store.load]
    rw [Dispatch.step_loading backend, there, made]
  unfold Tally.merge
  cases resolved : Resolution.resolve m (SortedMap.get? t.records m.key) schema with
  | error error =>
    obtain ⟨-, reasons, rfl⟩ := Resolution.error_of_resolve resolved
    exact (endsWith_refused keeps tells inTime reasons).step
      (loaded _ (by simp [Dispatch.onLoad, resolved])) rfl
  | ok resolution =>
    cases resolution with
    | stale stamp =>
      exact (endsWith_plain keeps tells inTime .stale).step (loaded _ (by simp [Dispatch.onLoad, resolved])) rfl
    | tombstone record =>
      exact (endsWith_writing keeps backend tells inTime ⟨_, resolved, rfl⟩).step
        (loaded (.writing record .noop) (by simp [Dispatch.onLoad, resolved])) rfl
    | write record change =>
      exact (endsWith_writing keeps backend tells inTime ⟨_, resolved, rfl⟩).step
        (loaded (.writing record (.applied change)) (by simp [Dispatch.onLoad, resolved])) rfl

/-- Looking for what is missing goes on until the deadline. -/
theorem reaches_timedOut (backend : c.backend = Store.backend) (rising : ∀ k, 0 < c.budget.backoff.delayAfter k)
    {w : DependencyWait} (missing : desk.store.isLive w.key = false) (fits : w.wait.deadline < Instant.clockEnd) :
    ∃ last, Reaches c ⟨now, desk, ⟨m, .probing w⟩⟩ ⟨last, desk, ⟨m, .closing (.timedOut w.key (last - w.since))⟩⟩ ∧
      now ≤ last ∧ (last = now ↔ w.wait.deadline ≤ now) ∧
      (now ≤ Instant.ceilMillis w.wait.deadline → last ≤ Instant.ceilMillis w.wait.deadline) := by
  generalize left : w.wait.deadline - now = time
  induction time using Nat.strongRecOn generalizing now w with
  | ind time sooner =>
    have looked : Goes c ⟨now, desk, ⟨m, .probing w⟩⟩ _ := .step rfl
    rw [Dispatch.step_probing backend, missing] at looked
    by_cases late : w.wait.deadline ≤ now
    · have ended : Dispatch.onProbe c.budget.backoff now w (.ok false) =
          .closing (.timedOut w.key (now - w.since)) := by
        simp [Dispatch.onProbe, Wait.pause?, late]
      rw [ended] at looked
      exact ⟨now, .single looked, Nat.le_refl _, by simp [late], id⟩
    · obtain ⟨until_, paused, later, most, -⟩ := Wait.exists_pause rising (Nat.not_le.1 late) fits
      let next : DependencyWait := { w with wait := { w.wait with attempt := w.wait.attempt + 1 } }
      have pausing : Dispatch.onProbe c.budget.backoff now w (.ok false) = .pausing until_ next := by
        simp [Dispatch.onProbe, paused, next]
      rw [pausing] at looked
      have rested : Goes c ⟨now, desk, ⟨m, .pausing until_ next⟩⟩ _ := .rest rfl later
      have resumed : Goes c ⟨until_, desk, ⟨m, .pausing until_ next⟩⟩ ⟨until_, desk, ⟨m, .probing next⟩⟩ :=
        .step (by simp [Dispatch.ready])
      have less : w.wait.deadline - until_ < time := by
        dsimp only [Instant, Duration] at *
        omega
      obtain ⟨last, reaches, onward, -, inTime⟩ := sooner _ less (w := next) missing fits rfl
      have longer := Nat.lt_of_lt_of_le later onward
      refine ⟨last, .head looked (.head rested (.head resumed reaches)), Nat.le_of_lt longer, ?_,
        fun _ => inTime most⟩
      exact iff_of_false (Nat.ne_of_gt longer) late

theorem endsWith_missing (keeps : c.keepsLetters = true) (backend : c.backend = Store.backend)
    (rising : ∀ k, 0 < c.budget.backoff.delayAfter k) (tells : t.Tells desk) {w : DependencyWait}
    (missing : t.isLive w.key = false) (fits : w.wait.deadline < Instant.clockEnd)
    (inTime : now ≤ Instant.ceilMillis w.wait.deadline) :
    EndsWith c ⟨now, desk, ⟨m, .probing w⟩⟩ (Instant.ceilMillis w.wait.deadline) (t.giveUp m) := by
  obtain ⟨last, reaches, later, -, most⟩ := reaches_timedOut (m := m) backend rising (tells.isLive _ ▸ missing) fits
  obtain ⟨final, left, outcome, ends, told, onward, limit⟩ :=
    endsWith_timedOut keeps tells (m := m) (most inTime) w.key (last - w.since)
  exact ⟨final, left, outcome, reaches.trans ends, told, Nat.le_trans later onward, limit⟩

theorem endsWith_await (keeps : c.keepsLetters = true) (backend : c.backend = Store.backend)
    (rising : ∀ k, 0 < c.budget.backoff.delayAfter k) (tells : t.Tells desk) {since deadline : Instant}
    (fits : deadline < Instant.clockEnd) (early : now ≤ deadline) (keys : List EntityKey) :
    EndsWith c ⟨now, desk, ⟨m, Dispatch.await schema since deadline now keys⟩⟩
      (if keys.all t.isLive then now else Instant.ceilMillis deadline)
      (if keys.all t.isLive then t.merge schema m else t.giveUp m) := by
  induction keys with
  | nil => exact endsWith_loading keeps backend tells (Nat.le_refl _)
  | cons key later ih =>
    have same : now + (deadline - now) = deadline := Nat.add_sub_cancel' early
    cases live : t.isLive key with
    | true =>
      rw [List.all_cons, live, Bool.true_and]
      refine ih.step ?_ rfl
      rw [Dispatch.await, Dispatch.step_probing backend, tells.isLive]
      simp [Dispatch.onProbe, live]
    | false =>
      rw [List.all_cons, live, Bool.false_and]
      have inTime := Nat.le_trans early (Instant.le_ceilMillis deadline)
      let w : DependencyWait := { schema, since, deadline, wait := { start := now, deadline }, key, later }
      have awaits : Dispatch.await schema since deadline now (key :: later) = .probing w := by
        simp [Dispatch.await, same, w]
      simp only [awaits, Bool.false_eq_true, if_false]
      exact endsWith_missing keeps backend rising tells live fits inTime

/-- A dispatch by itself does what the program does that never waits. -/
theorem endsWith_apply (keeps : c.keepsLetters = true) (backend : c.backend = Store.backend)
    (rising : ∀ k, 0 < c.budget.backoff.delayAfter k) (tells : t.Tells desk) (m : Message)
    (fits : now + c.budget.budgetFor m.isForceSync < Instant.clockEnd) :
    EndsWith c ⟨now, desk, { message := m }⟩ (t.overAt c.registry c.budget now m) (t.apply c.registry m) := by
  have early : now ≤ now + c.budget.budgetFor m.isForceSync := Nat.le_add_right ..
  have inTime := Nat.le_refl now
  let counted : Desk Store := { desk with stats := { desk.stats with received := desk.stats.received + 1 } }
  have told : t.receive.Tells counted := by
    refine ⟨tells.store, tells.letters, ?_⟩
    rw [Tally.receive, ← tells.stats]
  suffices EndsWith c ⟨now, counted, ⟨m, Dispatch.receive c.registry c.budget now m⟩⟩
      (t.overAt c.registry c.budget now m) (t.receive.settle c.registry m) from
    this.step rfl rfl
  unfold Dispatch.receive Tally.settle Tally.overAt
  cases c.registry.handlerFor? m with
  | none => exact endsWith_plain keeps told inTime .filtered
  | some handler =>
    simp only [Dispatch.dependencies]
    cases m.action.isDeletion || handler.schema.isSoftDeleted m.snapshot || handler.requirements.isEmpty with
    | true => exact endsWith_loading keeps backend told inTime
    | false =>
      cases handler.schema.check m.snapshot true with
      | invalid reasons => exact endsWith_refused keeps told inTime reasons
      | valid =>
        cases Requirement.references handler.requirements m.snapshot with
        | error reasons => exact endsWith_refused keeps told inTime reasons
        | ok keys =>
          have due : Instant.after? now (c.budget.budgetFor m.isForceSync) =
            some (now + c.budget.budgetFor m.isForceSync) := if_pos fits
          simp only [Bool.false_eq_true, if_false, due]
          exact endsWith_await keeps backend rising told fits early keys

end Store

end Lone

end Replica

import Replica.Proofs.Delays
import Replica.Proofs.Dependencies
import Replica.Proofs.Journal
import Replica.Proofs.Ticks
/-! One deadline for all that a message waits for. The entities are looked for one after another, each with pauses
that start anew, on what is left of the time. However much of it went on those before, the last look in vain is
made with the millisecond in which the deadline is, neither sooner nor later, and no look is made after it. -/
namespace Replica

/-- A look for an entity. -/
structure Look where
  key : EntityKey
  /-- When it was made. -/
  at_ : Instant
  /-- Whether the entity had a live record. -/
  found : Bool
  deriving DecidableEq

namespace Look

/-- What is left to look for after a look for the first of these. -/
def next : List EntityKey → Look → Option (List EntityKey)
  | [], _ => none
  | key :: later, look => if look.key = key then some (if look.found then later else key :: later) else none

/-- The entities found. -/
def found? (look : Look) : Option EntityKey := if look.found then some look.key else none

/-- Looks for these entities, each as soon as the one before was found, leave the others. -/
abbrev InOrder (keys : List EntityKey) (looks : List Look) (left : List EntityKey) : Prop :=
  looks.foldlM next keys = some left

theorem InOrder.snoc {keys left after : List EntityKey} {looks : List Look} {look : Look}
    (inOrder : InOrder keys looks left) (made : next left look = some after) :
    InOrder keys (looks ++ [look]) after := by
  simp [InOrder, List.foldlM_append, show looks.foldlM next keys = some left from inOrder, made]

/-- The entities found are those before the ones that are left. -/
theorem InOrder.found_append {keys left : List EntityKey} {looks : List Look} (inOrder : InOrder keys looks left) :
    looks.filterMap found? ++ left = keys := by
  induction looks generalizing keys with
  | nil => exact (Option.some.inj inOrder).symm
  | cons look rest ih =>
    cases keys with
    | nil => cases inOrder
    | cons key later =>
      unfold InOrder at inOrder
      rw [List.foldlM_cons, next] at inOrder
      by_cases same : look.key = key
      · cases seen : look.found with
        | true =>
          simp only [same, seen, if_true] at inOrder
          simp [found?, seen, same, ih inOrder]
        | false =>
          simp only [same, seen, if_true, Bool.false_eq_true, if_false] at inOrder
          simp [found?, seen, ih inOrder]
      · simp [same] at inOrder

theorem length_eq (looks : List Look) :
    looks.length = (looks.filterMap found?).length + looks.countP (!·.found) := by
  induction looks with
  | nil => rfl
  | cons look rest ih =>
    cases seen : look.found <;> simp [found?, seen, ih] <;> omega

end Look

/-- The look that the step makes. -/
def Lone.look? (s : Lone Store) : Option Look :=
  match s.dispatch.phase with
  | .probing w => some ⟨w.key, s.now, s.desk.store.isLive w.key⟩
  | _ => none

/-- The step leaves the store alone. -/
def Lone.Spares (c : Consumer Store) (s : Lone Store) : Prop :=
  (s.dispatch.step c s.now s.desk).1.store = s.desk.store

namespace Dispatch

/-- The clock goes on to a whole millisecond, not while the dispatch can make a step, and not beyond the end of its
pause. -/
def Rests (d : Dispatch) (now later : Instant) : Prop :=
  later = now ∨ later.IsTick ∧ d.ready now = false ∧ ∀ until_ ∈ d.wakeAt, later ≤ until_

instance (d : Dispatch) (now later : Instant) : Decidable (d.Rests now later) :=
  inferInstanceAs (Decidable (_ ∨ _ ∧ _ ∧ ∀ until_ ∈ d.wakeAt, later ≤ until_))

/-! ### Once all are there -/

/-- The message is being merged, or that is over. -/
def Phase.Merges (m : Message) : Phase → Prop
  | .loading _ => True
  | .writing _ outcome => outcome.state = .applied
  | .closing ending => ∀ outcome, ending.result m = .ok outcome → outcome.state ≠ .dependenciesTimedOut
  | .shelving _ result => ∀ outcome, result = .ok outcome → outcome.state ≠ .dependenciesTimedOut
  | .done result => ∀ outcome, result = .ok outcome → outcome.state ≠ .dependenciesTimedOut
  | _ => False

variable {c : Consumer Store} {m : Message} {keys left : List EntityKey} {start deadline now : Instant}
  {past : List (Lone Store)} {phase : Phase}

theorem merges_failed (error : SyncError) : (Phase.closing (.failed error)).Merges m := by
  intro outcome given
  cases again : error.isRetryable <;> simp [Ending.result, again] at given
  subst given
  simp [Outcome.state]

theorem merges_plain {outcome : Outcome} (merged : outcome.state = .applied) :
    (Phase.closing (.plain outcome)).Merges m := by
  intro given same
  obtain rfl := Except.ok.inj same
  simp [merged]

theorem merges_step (backend : c.backend = Store.backend) (merges : phase.Merges m) (desk : Desk Store) :
    (step c now desk ⟨m, phase⟩).2.phase.Merges m := by
  cases phase with
  | loading schema =>
    rw [step_loading backend]
    rcases onLoad_cases schema m (desk.store.load m.key) with ⟨record, outcome, made, merged⟩ | ⟨made, -⟩ |
      ⟨reasons, made, -⟩ <;> simp only [made]
    · exact merged.state_eq
    · exact merges_plain rfl
    · exact merges_failed _
  | writing record outcome =>
    rw [step]
    rcases onWrite_cases outcome (c.backend.upsert record desk.store).1 with ⟨error, -, made⟩ |
      ⟨upsert, -, -, made⟩ | ⟨upsert, -, -, made⟩ <;> simp only [made]
    · exact merges_failed _
    · exact merges_plain rfl
    · exact merges_plain merges
  | closing ending =>
    simp only [step]
    split <;> exact merges
  | shelving letter result => exact merges
  | done result => exact merges
  | _ => exact merges.elim

/-! ### While something is missing -/

/-- The steps so far left the store alone and handed nothing over. -/
structure Quiet (c : Consumer Store) (past : List (Lone Store)) : Prop where
  spared : ∀ s ∈ past, s.Spares c
  letters : past.filterMap Lone.letter? = []

/-- What was looked for so far, if the next look is not made before this moment. Every look in vain costs a
millisecond at least. -/
structure Searched (keys : List EntityKey) (start deadline : Instant) (looks : List Look) (left : List EntityKey)
    (t : Instant) : Prop where
  inOrder : Look.InOrder keys looks left
  times : ∀ look ∈ looks, start ≤ look.at_ ∧ look.at_ ≤ Instant.ceilMillis deadline
  vain : start + looks.countP (!·.found) * Duration.millis 1 ≤ t

theorem Searched.times_concat {looks : List Look} {key : EntityKey} {t : Instant}
    (searched : Searched keys start deadline looks left t) (early : start ≤ t)
    (inTime : t ≤ Instant.ceilMillis deadline) (found : Bool) :
    ∀ look ∈ looks ++ [⟨key, t, found⟩], start ≤ look.at_ ∧ look.at_ ≤ Instant.ceilMillis deadline := by
  intro look among
  rcases List.mem_append.1 among with before | last
  · exact searched.times look before
  · obtain rfl := List.mem_singleton.1 last
    exact ⟨early, inTime⟩

theorem Searched.found {looks : List Look} {key : EntityKey} {t : Instant}
    (searched : Searched keys start deadline looks (key :: left) t) (early : start ≤ t)
    (inTime : t ≤ Instant.ceilMillis deadline) :
    Searched keys start deadline (looks ++ [⟨key, t, true⟩]) left t where
  inOrder := searched.inOrder.snoc (by simp [Look.next])
  times := searched.times_concat early inTime true
  vain := by simpa [List.countP_append] using searched.vain

theorem Searched.missed {looks : List Look} {key : EntityKey} {t u : Instant}
    (searched : Searched keys start deadline looks (key :: left) t) (early : start ≤ t)
    (inTime : t ≤ Instant.ceilMillis deadline) (later : t + Duration.millis 1 ≤ u) :
    Searched keys start deadline (looks ++ [⟨key, t, false⟩]) (key :: left) u where
  inOrder := searched.inOrder.snoc (by simp [Look.next])
  times := searched.times_concat early inTime false
  vain := by
    have vain := searched.vain
    have more : (looks ++ [Look.mk key t false]).countP (!·.found) = looks.countP (!·.found) + 1 := by
      simp [List.countP_append]
    rw [more, Nat.add_mul]
    dsimp only [Instant, Duration] at *
    omega

theorem Searched.length_le {looks : List Look} {t : Instant} (searched : Searched keys start deadline looks left t)
    (most : t ≤ Instant.ceilMillis deadline + Duration.millis 1) :
    looks.length ≤ keys.length + (Instant.ceilMillis deadline - start) / Duration.millis 1 + 1 := by
  have split := congrArg List.length searched.inOrder.found_append
  have vain := searched.vain
  rw [List.length_append] at split
  rw [Look.length_eq]
  generalize looks.countP (!·.found) = misses at *
  generalize Instant.ceilMillis deadline = end_ at *
  dsimp only [Instant, Duration, Duration.millis] at *
  omega

/-- The next look is due at this moment. The wait for an entity ends with the deadline, or at once if it begins after
that, in the same millisecond. -/
structure Seeks (c : Consumer Store) (keys : List EntityKey) (start deadline : Instant) (past : List (Lone Store))
    (t : Instant) (w : DependencyWait) : Prop where
  searched : Searched keys start deadline (past.filterMap Lone.look?) (w.key :: w.later) t
  quiet : Quiet c past
  since_eq : w.since = start
  deadline_eq : w.deadline = deadline
  due : w.wait.deadline = max deadline w.wait.start
  begun : w.wait.start ≤ t
  early : start ≤ t
  inTime : t ≤ Instant.ceilMillis deadline
  tick : t.IsTick

/-- The dispatch of a message that waits for these entities from the start on until the deadline. -/
inductive OnTime (c : Consumer Store) (m : Message) (keys : List EntityKey) (start deadline : Instant) :
    Instant → List (Lone Store) → Dispatch → Prop
  | arrived : OnTime c m keys start deadline start [] { message := m }
  | probing {now : Instant} {past : List (Lone Store)} {w : DependencyWait}
      (seeks : Seeks c keys start deadline past now w) :
      OnTime c m keys start deadline now past ⟨m, .probing w⟩
  | pausing {now until_ : Instant} {past : List (Lone Store)} {w : DependencyWait}
      (seeks : Seeks c keys start deadline past until_ w) (rests : now ≤ until_) :
      OnTime c m keys start deadline now past ⟨m, .pausing until_ w⟩
  | merging {now t : Instant} {past : List (Lone Store)} {phase : Phase} (merges : phase.Merges m)
      (searched : Searched keys start deadline (past.filterMap Lone.look?) [] t)
      (inTime : t ≤ Instant.ceilMillis deadline) :
      OnTime c m keys start deadline now past ⟨m, phase⟩
  | gaveUp {now : Instant} {past : List (Lone Store)} {d : Dispatch} {missing : EntityKey} {later : List EntityKey}
      (message : d.message = m)
      (searched : Searched keys start deadline (past.filterMap Lone.look?) (missing :: later)
        (Instant.ceilMillis deadline + Duration.millis 1))
      (last : (past.filterMap Lone.look?).getLast? = some ⟨missing, Instant.ceilMillis deadline, false⟩)
      (spared : ∀ s ∈ past, s.Spares c)
      (ends : d.Ends (.timedOut missing (Instant.ceilMillis deadline - start)) (past.filterMap Lone.letter?))
      (stays : d.result? = none → now = Instant.ceilMillis deadline) :
      OnTime c m keys start deadline now past d

theorem spared_concat (backend : c.backend = Store.backend) (spared : ∀ s ∈ past, s.Spares c) {d : Dispatch}
    (reads : ∀ record outcome, d.phase ≠ .writing record outcome) (now : Instant) (desk : Desk Store) :
    ∀ s ∈ past ++ [⟨now, desk, d⟩], s.Spares c := by
  intro s among
  rcases List.mem_append.1 among with earlier | last
  · exact spared s earlier
  · obtain rfl := List.mem_singleton.1 last
    have kept := d.store_step (Consumer.onStore_of_backend backend) now desk
    unfold Lone.Spares
    cases phase : d.phase <;> simp_all

theorem Quiet.concat (backend : c.backend = Store.backend) (quiet : Quiet c past) {d : Dispatch}
    (reads : ∀ record outcome, d.phase ≠ .writing record outcome) (keeps : d.phase.letter? = none) (now : Instant)
    (desk : Desk Store) : Quiet c (past ++ [⟨now, desk, d⟩]) where
  spared := spared_concat backend quiet.spared reads now desk
  letters := by rw [filterMap_concat, quiet.letters, Lone.letter?, keeps]; rfl

/-- Going on to the next entity, on what is left of the time. -/
theorem onTime_await (quiet : Quiet c past)
    (searched : Searched keys start deadline (past.filterMap Lone.look?) left now) (early : start ≤ now)
    (inTime : now ≤ Instant.ceilMillis deadline) (tick : now.IsTick) (schema : Schema) :
    OnTime c m keys start deadline now past ⟨m, await schema start deadline now left⟩ := by
  cases left with
  | nil => exact .merging trivial searched inTime
  | cons key later =>
    refine .probing ⟨searched, quiet, rfl, rfl, ?_, Nat.le_refl _, early, inTime, tick⟩
    dsimp only [Instant, Duration]
    omega

/-- A look in vain before the deadline. -/
theorem Seeks.pause {w : DependencyWait} (seeks : Seeks c keys start deadline past now w)
    (rising : ∀ k, 0 < c.budget.backoff.delayAfter k) (fits : deadline < Instant.clockEnd)
    (open_ : now < w.wait.deadline) {more : List (Lone Store)} (quiet : Quiet c more)
    (looks : more.filterMap Lone.look? = past.filterMap Lone.look? ++ [⟨w.key, now, false⟩]) :
    OnTime c m keys start deadline now more ⟨m, onProbe c.budget.backoff now w (.ok false)⟩ := by
  have due : w.wait.deadline = deadline := by
    have due := seeks.due
    have begun := seeks.begun
    dsimp only [Instant] at *
    omega
  obtain ⟨until_, paused, longer, inTime, tick, -⟩ := Wait.exists_pause rising open_ (due ▸ fits)
  rw [due] at inTime
  simp only [onProbe, paused]
  refine .pausing ⟨?_, quiet, seeks.since_eq, seeks.deadline_eq, seeks.due, ?_, ?_, inTime, tick⟩ (Nat.le_of_lt longer)
  · rw [looks]
    exact seeks.searched.missed seeks.early seeks.inTime (seeks.tick.add_le_of_lt tick longer)
  · exact Nat.le_trans seeks.begun (Nat.le_of_lt longer)
  · exact Nat.le_trans seeks.early (Nat.le_of_lt longer)

/-- A look in vain at the deadline, which is the last one. -/
theorem Seeks.giveUp {w : DependencyWait} (seeks : Seeks c keys start deadline past now w) (b : Backoff)
    (late : w.wait.deadline ≤ now) {more : List (Lone Store)} (quiet : Quiet c more)
    (looks : more.filterMap Lone.look? = past.filterMap Lone.look? ++ [⟨w.key, now, false⟩]) :
    OnTime c m keys start deadline now more ⟨m, onProbe b now w (.ok false)⟩ := by
  obtain rfl : now = Instant.ceilMillis deadline := by
    refine Nat.le_antisymm seeks.inTime (Instant.ceilMillis_le seeks.tick (Nat.le_trans ?_ late))
    rw [seeks.due]
    exact Nat.le_max_left ..
  simp only [onProbe, Wait.pause?_eq_none late, seeks.since_eq]
  have searched := seeks.searched.missed seeks.early seeks.inTime (Nat.le_refl _)
  rw [← looks] at searched
  exact .gaveUp rfl searched (by rw [looks, List.getLast?_concat]) quiet.spared ⟨rfl, quiet.letters⟩ fun _ => rfl

/-- A look for an entity: on to the next one, or a pause, or the end of the wait. -/
theorem Seeks.look (backend : c.backend = Store.backend) (rising : ∀ k, 0 < c.budget.backoff.delayAfter k)
    (fits : deadline < Instant.clockEnd) {w : DependencyWait} (seeks : Seeks c keys start deadline past now w)
    (desk : Desk Store) :
    OnTime c m keys start deadline now (past ++ [⟨now, desk, ⟨m, .probing w⟩⟩])
      (step c now desk ⟨m, .probing w⟩).2 := by
  have quiet := seeks.quiet.concat backend (d := ⟨m, .probing w⟩) (by simp) rfl now desk
  have looks := filterMap_concat Lone.look? past ⟨now, desk, ⟨m, .probing w⟩⟩
  rw [step_probing backend]
  cases live : desk.store.isLive w.key with
  | true =>
    simp only [Lone.look?, live, Option.toList_some] at looks
    have all := seeks.searched.found seeks.early seeks.inTime
    simp only [onProbe, seeks.since_eq, seeks.deadline_eq]
    exact onTime_await quiet (looks ▸ all) seeks.early seeks.inTime seeks.tick _
  | false =>
    simp only [Lone.look?, live, Option.toList_some] at looks
    rcases Nat.lt_or_ge now w.wait.deadline with open_ | late
    · exact seeks.pause rising fits open_ quiet looks
    · exact seeks.giveUp _ late quiet looks

/-- The wait begins with the first entity, and nothing was done before. -/
theorem onTime_receive (backend : c.backend = Store.backend) {handler : Handler}
    (handled : c.registry.handlerFor? m = some handler) (waits : dependencies handler m = .ok (some keys))
    (tick : start.IsTick) (due : Instant.after? start (c.budget.budgetFor m.isForceSync) = some deadline)
    (desk : Desk Store) :
    OnTime c m keys start deadline start [⟨start, desk, { message := m }⟩]
      ⟨m, receive c.registry c.budget start m⟩ := by
  have made : receive c.registry c.budget start m = await handler.schema start deadline start keys := by
    simp [receive, handled, waits, due]
  have early : start ≤ deadline := by
    rw [(Instant.of_after? due).1]
    exact Nat.le_add_right ..
  have nothing : Quiet c [] := ⟨by simp, rfl⟩
  rw [made]
  refine onTime_await (nothing.concat backend (by simp) rfl start desk) ?_ (Nat.le_refl _)
    (Nat.le_trans early (Instant.le_ceilMillis _)) tick _
  change Searched keys start deadline [] keys start
  exact ⟨rfl, by simp, by simp⟩

theorem onTime_step (backend : c.backend = Store.backend) (rising : ∀ k, 0 < c.budget.backoff.delayAfter k)
    {handler : Handler} (handled : c.registry.handlerFor? m = some handler)
    (waits : dependencies handler m = .ok (some keys)) (tick : start.IsTick)
    (due : Instant.after? start (c.budget.budgetFor m.isForceSync) = some deadline) {d : Dispatch}
    (ready : d.ready now = true) (onTime : OnTime c m keys start deadline now past d) (desk : Desk Store) :
    OnTime c m keys start deadline now (past ++ [⟨now, desk, d⟩]) (d.step c now desk).2 := by
  cases onTime with
  | arrived => exact onTime_receive backend handled waits tick due desk
  | probing seeks =>
    obtain ⟨rfl, within⟩ := Instant.of_after? due
    exact seeks.look backend rising within desk
  | @pausing _ until_ _ w seeks rests =>
    obtain rfl : now = until_ := Nat.le_antisymm rests (of_decide_eq_true ready)
    refine .probing { seeks with searched := ?_, quiet := seeks.quiet.concat backend (by simp) rfl now desk }
    rw [filterMap_concat]
    simpa [Lone.look?] using seeks.searched
  | @merging _ t _ phase merges searched inTime =>
    have looks : Lone.look? ⟨now, desk, ⟨m, phase⟩⟩ = none := by
      cases phase <;> first | rfl | exact merges.elim
    have still : (step c now desk ⟨m, phase⟩).2.phase.Merges m := merges_step backend merges desk
    rw [step_eq_of_phase rfl]
    refine .merging still ?_ inTime
    rw [filterMap_concat, looks]
    simpa using searched
  | @gaveUp _ _ _ missing later message searched last spared ends stays =>
    obtain ⟨m, phase⟩ := d
    have looks : Lone.look? ⟨now, desk, ⟨m, phase⟩⟩ = none := by
      cases phase <;> first | rfl | exact ends.elim
    have same := filterMap_concat Lone.look? past ⟨now, desk, ⟨m, phase⟩⟩
    rw [looks, Option.toList_none, List.append_nil] at same
    rw [← same] at searched last
    refine .gaveUp ((message_step ..).trans message) searched last (spared_concat backend spared ?_ now desk) ?_ ?_
    · rintro record outcome rfl
      exact ends
    · rw [filterMap_concat]
      exact ends.step c now desk
    · refine fun _ => stays ?_
      cases phase <;> first | rfl | cases ready

/-- The clock does not go on while the dispatch could, nor beyond the end of its pause. -/
theorem OnTime.rests {d : Dispatch} {later : Instant} (rests : d.Rests now later)
    (onTime : OnTime c m keys start deadline now past d) : OnTime c m keys start deadline later past d := by
  rcases rests with rfl | ⟨-, unready, within⟩
  · exact onTime
  · cases onTime with
    | arrived => cases unready
    | probing seeks => cases unready
    | pausing seeks rests => exact .pausing seeks (within _ rfl)
    | merging merges searched inTime => exact .merging merges searched inTime
    | gaveUp message searched last spared ends stays =>
      refine .gaveUp message searched last spared ends fun open_ => ?_
      unfold Ends at ends
      unfold ready at unready
      unfold result? at open_
      cases phase : d.phase <;> simp_all

end Dispatch

namespace Crew

variable {c : Consumer Store} {crew : Crew Store} {id : Nat} {m : Message}

/-- A message that has to wait for entities is received at a whole millisecond, and whatever else happens, the clock
goes on to whole milliseconds only, and not while its dispatch could. The entities are looked for in declared order,
those found first, and each look is made between the start and the end of the wait, which is the deadline rounded up.
There are no more looks than entities and milliseconds.

While the dispatch waits, it is not past the end of the wait and will not pause beyond it. Otherwise every entity was
found, and then it does not end for want of one; or it gave up at the end of the wait, after a last look then for the
first entity that was not found before, has waited all the time, and never changed the store. -/
theorem waits_until_deadline (backend : c.backend = Store.backend)
    (rising : ∀ k, 0 < c.budget.backoff.delayAfter k) (free : crew.dispatches.get? id = none) {handler : Handler}
    (handled : c.registry.handlerFor? m = some handler) {keys : List EntityKey}
    (waits : Dispatch.dependencies handler m = .ok (some keys)) (tick : crew.now.IsTick)
    (fits : crew.now + c.budget.budgetFor m.isForceSync < Instant.clockEnd) {moves : List (Move Store)}
    (lets : Lets c id Dispatch.Rests moves (next c crew (.receive id m))) :
    let end_ := Instant.ceilMillis (crew.now + c.budget.budgetFor m.isForceSync)
    let made := journal c id moves (next c crew (.receive id m))
    let looks := made.filterMap Lone.look?
    let after := run c (.receive id m :: moves) crew
    ∃ d left, after.dispatches.get? id = some d ∧ d.message = m ∧
      Look.InOrder keys looks left ∧ looks.filterMap Look.found? ++ left = keys ∧
      (∀ look ∈ looks, crew.now ≤ look.at_ ∧ look.at_ ≤ end_) ∧
      looks.length ≤ keys.length + (end_ - crew.now) / Duration.millis 1 + 1 ∧
      ((d.phase = .arrived ∨ d.phase.IsWaiting) ∧ d.phase ≠ .beyondClock ∧ after.now ≤ end_ ∧
          (∀ until_ ∈ d.wakeAt, until_ ≤ end_) ∨
        left = [] ∧ (∀ outcome, d.verdict? = some (.ok outcome) → outcome.state ≠ .dependenciesTimedOut) ∨
        ∃ missing later, left = missing :: later ∧ looks.getLast? = some ⟨missing, end_, false⟩ ∧
          d.Ends (.timedOut missing (end_ - crew.now)) (made.filterMap Lone.letter?) ∧
          (d.result? = none → after.now = end_) ∧ ∀ s ∈ made, s.Spares c) := by
  intro end_ made looks after
  have same : (next c crew (.receive id m)).now = crew.now := by simp [next, free]
  have due : Instant.after? crew.now (c.budget.budgetFor m.isForceSync) = some _ := if_pos fits
  have early : crew.now ≤ end_ := Nat.le_trans (Nat.le_add_right ..) (Instant.le_ceilMillis _)
  have onTime : Dispatch.OnTime c m keys crew.now (crew.now + c.budget.budgetFor m.isForceSync)
      (next c crew (.receive id m)).now [] { message := m } := by
    rw [same]
    exact .arrived
  obtain ⟨d, found, onTime⟩ := exists_journal (Dispatch.OnTime c m keys crew.now _)
    (fun now desk past d ready onTime => Dispatch.onTime_step backend rising handled waits tick due ready onTime desk)
    (fun now later past d rests onTime => onTime.rests rests) lets
    (get?_receive_of_free c free m) onTime
  change after.dispatches.get? id = some d at found
  change Dispatch.OnTime c m keys crew.now _ after.now made d at onTime
  clear_value made after
  obtain ⟨desk, now, dispatches⟩ := after
  refine ⟨d, ?_⟩
  cases onTime with
  | arrived =>
    exact ⟨keys, found, rfl, rfl, rfl, fun _ among => absurd among List.not_mem_nil, Nat.zero_le _,
      .inl ⟨.inl rfl, by simp, early, by simp [Dispatch.wakeAt]⟩⟩
  | @probing _ _ w seeks =>
    have searched := seeks.searched
    exact ⟨_, found, rfl, searched.inOrder, searched.inOrder.found_append, searched.times,
      searched.length_le (Nat.le_add_right_of_le seeks.inTime),
      .inl ⟨.inr trivial, by simp, seeks.inTime, by simp [Dispatch.wakeAt]⟩⟩
  | @pausing _ until_ _ w seeks rests =>
    have searched := seeks.searched
    refine ⟨_, found, rfl, searched.inOrder, searched.inOrder.found_append, searched.times,
      searched.length_le (Nat.le_add_right_of_le seeks.inTime),
      .inl ⟨.inr trivial, by simp, Nat.le_trans rests seeks.inTime, fun other wakes => ?_⟩⟩
    obtain rfl := Option.some.inj wakes
    exact seeks.inTime
  | @merging _ t _ phase merges searched inTime =>
    refine ⟨[], found, rfl, searched.inOrder, searched.inOrder.found_append, searched.times,
      searched.length_le (Nat.le_add_right_of_le inTime), .inr (.inl ⟨rfl, fun outcome decided => ?_⟩)⟩
    cases phase <;> first | exact merges outcome (Option.some.inj decided) | cases decided
  | gaveUp message searched last spared ends stays =>
    exact ⟨_, found, message, searched.inOrder, searched.inOrder.found_append, searched.times,
      searched.length_le (Nat.le_refl _), .inr (.inr ⟨_, _, rfl, last, ends, stays, spared⟩)⟩

section Samples

open Fixtures

/-- The market, with a little more than 300 ms to wait. -/
def hastyMarket : Consumer Store := { market with budget := { organic := Duration.millis 300 + 500000 } }

def seller : EntityKey := ⟨"company", "c-2"⟩

/-- The buyer of a deal comes after 100 ms and is found after 250 ms. The seller is looked for then and after
301 ms. -/
def sellerMissing : List (Move Store) :=
  steps 0 2 ++ [.pass (Duration.millis 100), .receive 1 (companyCreated "c-1" "Acme" (stamp 1))] ++ steps 1 4 ++
    [.pass (Duration.millis 150)] ++ steps 0 3 ++ [.pass (Duration.millis 51)] ++ steps 0 3

theorem waits_until_deadline_sellerMissing :
    ((∀ k, 0 < hastyMarket.budget.backoff.delayAfter k) ∧
      Dispatch.dependencies deals dealMade = .ok (some [acme, seller]) ∧
      Lets hastyMarket 0 Dispatch.Rests sellerMissing (next hastyMarket (opened {}) (.receive 0 dealMade))) ∧
    ∃ d, (run hastyMarket (.receive 0 dealMade :: sellerMissing) (opened {})).dispatches.get? 0 = some d ∧
      d.result? = some (.ok (.dropped seller)) ∧ d.Ends (.timedOut seller (Duration.millis 301)) [] := by
  have rising := Backoff.delayAfter_pos (b := hastyMarket.budget.backoff) (by decide) (by decide) Binary64.atLeast_two
  have waits : Dispatch.dependencies deals dealMade = .ok (some [acme, seller]) := by rfl
  have lets : Lets hastyMarket 0 Dispatch.Rests sellerMissing
      (next hastyMarket (opened {}) (.receive 0 dealMade)) := by decide +kernel
  refine ⟨⟨rising, waits, lets⟩, ?_⟩
  obtain ⟨d, left, found, message, -, -, -, -, how⟩ := waits_until_deadline rfl rising
    (show (opened {}).dispatches.get? 0 = none from rfl)
    (show hastyMarket.registry.handlerFor? dealMade = some deals from rfl) waits (by decide) (by decide) lets
  have ended : ((run hastyMarket (.receive 0 dealMade :: sellerMissing) (opened {})).dispatches.get? 0).bind
      Dispatch.result? = some (.ok (.dropped seller)) := by decide +kernel
  rw [found] at ended
  refine ⟨d, found, ended, ?_⟩
  rcases how with ⟨waiting, -⟩ | ⟨-, goesOn⟩ | ⟨missing, later, -, -, ends, -⟩
  · unfold Dispatch.result? at ended
    cases phase : d.phase <;> simp_all [Dispatch.Phase.IsWaiting]
  · exact absurd rfl (goesOn _ (Dispatch.verdict?_of_result? ended))
  · obtain ⟨result, letters⟩ := ends.of_result? ended
    rw [message] at result letters
    obtain rfl : seller = missing := Outcome.dropped.inj (Except.ok.inj result)
    have waited : Instant.ceilMillis ((opened {} : Crew Store).now +
        hastyMarket.budget.budgetFor dealMade.isForceSync) - (opened {} : Crew Store).now = Duration.millis 301 := by
      decide +kernel
    rw [waited] at ends letters
    rwa [letters] at ends

end Samples

end Crew

end Replica

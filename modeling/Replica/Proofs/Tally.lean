import Replica.Proofs.Course
import Replica.Proofs.Sample
/-! What the counters of a consumer stand for. Every dispatch is counted when it starts and once more when
it is known how it ends, under the one counter that its result names; between the two it is pending. So at
every moment the counters account for all dispatches, and for the messages set aside. -/
namespace Replica

/-- What finished dispatches are counted under. -/
inductive Counter where
  | filtered
  | applied
  | stale
  | noop
  | dropped
  | escalated
  | deadLettered
  | transientFailures
  deriving DecidableEq

namespace Counter

/-- The counter that a result names. -/
def ofResult : DispatchResult → Counter
  | .ok .filtered => filtered
  | .ok (.applied _) => applied
  | .ok .stale => stale
  | .ok .noop => noop
  | .ok (.dropped _) => dropped
  | .ok (.escalated _) => escalated
  | .ok (.deadLettered _) => deadLettered
  | .error _ => transientFailures

/-- Whether the messages counted here are set aside. -/
def setsAside : Counter → Bool
  | escalated => true
  | deadLettered => true
  | _ => false

end Counter

namespace Stats

/-- Where a counter stands. -/
def at_ (stats : Stats) : Counter → Nat
  | .filtered => stats.filtered
  | .applied => stats.applied
  | .stale => stats.stale
  | .noop => stats.noop
  | .dropped => stats.dropped
  | .escalated => stats.escalated
  | .deadLettered => stats.deadLettered
  | .transientFailures => stats.transientFailures

/-- All dispatches counted as finished. -/
def finished (stats : Stats) : Nat :=
  stats.filtered + stats.applied + stats.stale + stats.noop + stats.dropped + stats.escalated +
    stats.deadLettered + stats.transientFailures

end Stats

namespace Ending

/-- An ending without trouble is one of those that are counted as such. -/
def Sound : Ending → Prop
  | plain outcome => outcome = .filtered ∨ outcome.state = .applied
  | _ => True

variable {m : Message} {ending : Ending}

/-- An ending raises the counter that its result names by one, and no other. -/
theorem at_count (sound : ending.Sound) (stats : Stats) (counter : Counter) :
    (ending.count m stats).at_ counter =
      stats.at_ counter + if Counter.ofResult (ending.result m) = counter then 1 else 0 := by
  cases ending with
  | plain outcome => cases outcome <;> simp_all [Sound, Outcome.state] <;> cases counter <;> rfl
  | timedOut missing waited =>
    cases forced : m.isForceSync <;> simp only [count, result, forced] <;> cases counter <;> rfl
  | failed error =>
    cases retryable : error.isRetryable <;> simp only [count, result, retryable] <;>
      cases counter <;> rfl

theorem finished_count (sound : ending.Sound) (stats : Stats) :
    (ending.count m stats).finished = stats.finished + 1 := by
  have raised := at_count (m := m) sound stats
  have filtered := raised .filtered
  have applied := raised .applied
  have stale := raised .stale
  have noop := raised .noop
  have dropped := raised .dropped
  have escalated := raised .escalated
  have deadLettered := raised .deadLettered
  have transientFailures := raised .transientFailures
  simp only [Stats.at_] at filtered applied stale noop dropped escalated deadLettered transientFailures
  unfold Stats.finished
  cases named : Counter.ofResult (ending.result m) <;> simp [named] at * <;> omega

/-- A message is set aside if and only if its ending is counted so. -/
theorem isSome_letter? (sound : ending.Sound) :
    (ending.letter? m).isSome = (Counter.ofResult (ending.result m)).setsAside := by
  cases ending with
  | plain outcome => cases outcome <;> simp_all [Sound, Outcome.state] <;> rfl
  | timedOut missing waited => cases forced : m.isForceSync <;> simp [letter?, result, forced] <;> rfl
  | failed error =>
    cases retryable : error.isRetryable <;> simp [letter?, result, retryable] <;> rfl

end Ending

namespace Dispatch

/-- What is about to be reported without trouble is counted as such. -/
def Phase.Sound : Phase → Prop
  | .writing _ outcome => outcome.state = .applied
  | .closing ending => ending.Sound
  | _ => True

/-- The counter under which the dispatch is counted as finished, if it is. -/
def Phase.counter? : Phase → Option Counter
  | .shelving _ result => some (.ofResult result)
  | .done result => some (.ofResult result)
  | _ => none

/-- The letter that is about to be handed over, if there is one. -/
def Phase.letter? : Phase → Option DeadLetter
  | .shelving letter _ => some letter
  | _ => none

/-- The message is about to be set aside. -/
def isShelving (d : Dispatch) : Bool := d.phase.letter?.isSome

/-- The dispatch is in progress. -/
def isInProgress (d : Dispatch) : Bool := !d.phase.isArrived && d.result?.isNone

/-- The dispatch is counted as finished, under this counter. -/
def countsAs (counter : Counter) (d : Dispatch) : Bool := d.phase.counter? == some counter

theorem Phase.of_isPending {phase : Phase} (pending : phase.isPending = true) :
    phase.counter? = none ∧ phase.letter? = none := by
  cases phase <;> first | exact ⟨rfl, rfl⟩ | cases pending

theorem isInProgress_of_isShelving {d : Dispatch} (shelving : d.isShelving = true) :
    d.isInProgress = true := by
  unfold isShelving at shelving
  unfold isInProgress result?
  cases phase : d.phase <;> simp_all [Phase.letter?, Phase.isArrived]

theorem counter?_of_result? {d : Dispatch} {result : DispatchResult}
    (ended : d.result? = some result) : d.phase.counter? = some (.ofResult result) := by
  unfold result? at ended
  cases phase : d.phase <;> simp_all [Phase.counter?]

theorem sound_onLoad (schema : Schema) (m : Message) (answer : Except SyncError (Option Record)) :
    (onLoad schema m answer).Sound := by
  cases answer with
  | error error => trivial
  | ok current =>
    rcases onLoad_cases schema m current with ⟨record, outcome, made, merges⟩ | ⟨made, -⟩ |
      ⟨reasons, made, -⟩ <;> rw [made]
    · exact merges.state_eq
    · exact .inr rfl
    · trivial

theorem sound_onWrite {outcome : Outcome} (sound : outcome.state = .applied)
    (answer : Except SyncError Upsert) : (onWrite outcome answer).Sound := by
  rcases onWrite_cases outcome answer with ⟨error, -, made⟩ | ⟨upsert, -, -, made⟩ |
    ⟨upsert, -, -, made⟩ <;> rw [made]
  · trivial
  · exact .inr rfl
  · exact .inr sound

/-- No dispatch reports an outcome that is not counted. -/
theorem kept_sound {σ : Type} (c : Consumer σ) :
    Crew.Kept c (fun _ => True) fun _ d => d.phase.Sound where
  sound_step _ _ _ _ _ := trivial
  arrives _ _ _ := trivial
  own now desk d _ sound := by
    unfold step
    cases phase : d.phase with
    | arrived =>
      rcases receive_cases c.registry c.budget now d.message with ⟨made, -⟩ |
        ⟨schema, -, ⟨reasons, made⟩ | made | ⟨-, made | ⟨w, made, -⟩⟩⟩ <;> simp only [made]
      · exact .inl rfl
      all_goals trivial
    | probing w =>
      rcases onProbe_cases c.budget.backoff now w (c.backend.probe w.key desk.store).1 with
        ⟨error, made⟩ | made | ⟨next, made, -⟩ | ⟨missing, waited, made⟩ | ⟨until_, next, made, -⟩ <;>
        simp only [made] <;> trivial
    | loading schema => exact sound_onLoad ..
    | writing record outcome =>
      rw [phase] at sound
      exact sound_onWrite sound _
    | closing ending =>
      dsimp only
      split <;> trivial
    | done result => simp [phase, Phase.Sound]
    | beyondClock => simp [phase, Phase.Sound]
    | _ => trivial
  other _ _ _ _ _ sound _ := sound

section Step

variable {σ : Type} (c : Consumer σ) (now : Instant) (desk : Desk σ) {d : Dispatch}

/-- Everything that a step can do to the counters: it counts the message as received, or it counts how the
dispatch ended, or it leaves them alone and changes nothing about how the dispatch is counted. -/
theorem stats_step (d : Dispatch) :
    (d.phase = .arrived ∧
      (d.step c now desk).1.stats = { desk.stats with received := desk.stats.received + 1 } ∧
      (d.step c now desk).2.phase.isPending = true) ∨
    (∃ ending, d.phase = .closing ending ∧
      (d.step c now desk).1.stats = ending.count d.message desk.stats ∧
      (d.step c now desk).2.phase.isPending = false ∧
      (d.step c now desk).2.phase.counter? = some (.ofResult (ending.result d.message)) ∧
      (d.step c now desk).2.phase.letter? = ending.letter? d.message) ∨
    ((d.step c now desk).1.stats = desk.stats ∧
      (d.step c now desk).2.phase.isPending = d.phase.isPending ∧
      (d.step c now desk).2.phase.counter? = d.phase.counter? ∧
      (d.step c now desk).2.phase.letter? = none) := by
  unfold step
  cases phase : d.phase with
  | arrived => exact .inl ⟨rfl, rfl, isPending_receive ..⟩
  | probing w => exact .inr (.inr ⟨rfl, isPending_onProbe .., Phase.of_isPending (isPending_onProbe ..)⟩)
  | pausing until_ w => exact .inr (.inr ⟨rfl, rfl, rfl, rfl⟩)
  | loading schema => exact .inr (.inr ⟨rfl, isPending_onLoad .., Phase.of_isPending (isPending_onLoad ..)⟩)
  | writing record outcome =>
    exact .inr (.inr ⟨rfl, isPending_onWrite .., Phase.of_isPending (isPending_onWrite ..)⟩)
  | closing ending =>
    refine .inr (.inl ⟨ending, rfl, rfl, ?_⟩)
    cases letter : ending.letter? d.message <;>
      simp [letter, Phase.isPending, Phase.counter?, Phase.letter?]
  | shelving letter result =>
    refine .inr (.inr ⟨?_, rfl, rfl, rfl⟩)
    cases kept : c.keepsLetters <;> rfl
  | done result => exact .inr (.inr ⟨rfl, by rw [phase], by rw [phase], by rw [phase]; rfl⟩)
  | beyondClock => exact .inr (.inr ⟨rfl, by rw [phase], by rw [phase], by rw [phase]; rfl⟩)

/-- A step raises the counter under which the dispatch is counted from then on, and no other. -/
theorem at_step (sound : d.phase.Sound) (counter : Counter) :
    (d.step c now desk).1.stats.at_ counter + (d.countsAs counter).toNat =
      desk.stats.at_ counter + ((d.step c now desk).2.countsAs counter).toNat := by
  unfold countsAs
  rcases stats_step c now desk d with ⟨phase, stats, pending⟩ | ⟨ending, phase, stats, -, counted, -⟩ |
    ⟨stats, -, counted, -⟩
  · rw [stats, phase, (Phase.of_isPending pending).1]
    cases counter <;> rfl
  · rw [phase] at sound
    rw [stats, phase, counted, Ending.at_count sound]
    by_cases named : Counter.ofResult (ending.result d.message) = counter <;>
      simp [named, Phase.counter?]
  · rw [stats, counted]

/-- A dispatch that is counted as finished stays counted so. -/
theorem countsAs_step {counter : Counter} (counted : d.countsAs counter = true) :
    (d.step c now desk).2.countsAs counter = true := by
  unfold countsAs at counted ⊢
  rcases stats_step c now desk d with ⟨phase, -⟩ | ⟨ending, phase, -⟩ | ⟨-, -, same, -⟩
  · simp [phase, Phase.counter?] at counted
  · simp [phase, Phase.counter?] at counted
  · rw [same, counted]

/-- A dispatch becomes pending as it is counted as received, and ceases to be as it is counted as finished. -/
theorem balance_step (sound : d.phase.Sound) :
    (d.step c now desk).1.stats.received + desk.stats.finished + d.phase.isPending.toNat =
      desk.stats.received + (d.step c now desk).1.stats.finished +
        (d.step c now desk).2.phase.isPending.toNat := by
  rcases stats_step c now desk d with ⟨phase, stats, pending⟩ | ⟨ending, phase, stats, closed, -⟩ |
    ⟨stats, same, -⟩
  · rw [stats, phase, pending]
    simp [Stats.finished, Phase.isPending]
    omega
  · rw [phase] at sound
    rw [stats, phase, closed, Ending.finished_count sound, received_count]
    simp [Phase.isPending]
    omega
  · rw [stats, same]

/-- A message is counted as one to be set aside just before it is. -/
theorem setAside_step (sound : d.phase.Sound) :
    (d.step c now desk).1.stats.escalated + (d.step c now desk).1.stats.deadLettered =
      desk.stats.escalated + desk.stats.deadLettered + (d.step c now desk).2.isShelving.toNat := by
  unfold isShelving
  rcases stats_step c now desk d with ⟨phase, stats, pending⟩ | ⟨ending, phase, stats, -, -, letter⟩ |
    ⟨stats, -, -, letter⟩
  · rw [stats, (Phase.of_isPending pending).2]
    rfl
  · rw [phase] at sound
    rw [stats, letter, Ending.isSome_letter? sound]
    have escalated := Ending.at_count (m := d.message) sound desk.stats .escalated
    have deadLettered := Ending.at_count (m := d.message) sound desk.stats .deadLettered
    simp only [Stats.at_] at escalated deadLettered
    rw [escalated, deadLettered]
    cases Counter.ofResult (ending.result d.message) <;> simp [Counter.setsAside] <;> omega
  · rw [stats, letter]
    rfl

/-- Only what was about to be handed over is, if letters are kept. -/
theorem letters_step (d : Dispatch) :
    (d.step c now desk).1.letters =
      desk.letters ++ if c.keepsLetters then d.phase.letter?.toList else [] := by
  unfold step
  cases phase : d.phase with
  | shelving letter result =>
    cases kept : c.keepsLetters <;> simp [Phase.letter?, Desk.shelve]
  | _ => simp [Phase.letter?]

end Step

end Dispatch

namespace Crew

variable {σ : Type}

/-- How many dispatches there are of this kind. -/
def count (crew : Crew σ) (kind : Dispatch → Bool) : Nat :=
  (SortedMap.values crew.dispatches).countP kind

/-- The letter that a move hands over: the move is the last step of a dispatch that sets its message
aside. -/
def letter? (crew : Crew σ) : Move σ → Option DeadLetter
  | .step id => (crew.dispatches.get? id).bind (·.phase.letter?)
  | _ => none

/-- The letters handed over during a run. -/
def handed (c : Consumer σ) : List (Move σ) → Crew σ → List DeadLetter
  | [], _ => []
  | move :: moves, crew => (letter? crew move).toList ++ handed c moves (next c crew move)

/-- How far the steps of one dispatch raised a counter during a run. -/
def raised (c : Consumer σ) (id : Nat) (counter : Counter) : List (Move σ) → Crew σ → Nat
  | [], _ => 0
  | move :: moves, crew =>
    (if move.isStep id then
      (next c crew move).desk.stats.at_ counter - crew.desk.stats.at_ counter
    else 0) + raised c id counter moves (next c crew move)

@[simp]
theorem handed_append (c : Consumer σ) (first second : List (Move σ)) (crew : Crew σ) :
    handed c (first ++ second) crew = handed c first crew ++ handed c second (run c first crew) := by
  induction first generalizing crew with
  | nil => rfl
  | cons move rest ih => simp [handed, ih]

@[simp]
theorem raised_append (c : Consumer σ) (id : Nat) (counter : Counter)
    (first second : List (Move σ)) (crew : Crew σ) :
    raised c id counter (first ++ second) crew =
      raised c id counter first crew + raised c id counter second (run c first crew) := by
  induction first generalizing crew with
  | nil => simp [raised]
  | cons move rest ih => simp [raised, ih, Nat.add_assoc]

theorem count_receive {crew : Crew σ} {id : Nat} (free : crew.dispatches.get? id = none)
    (kind : Dispatch → Bool) (d : Dispatch) :
    { crew with dispatches := crew.dispatches.insert id d }.count kind =
      crew.count kind + (kind d).toNat :=
  SortedMap.countP_values_insert_of_none free kind d

theorem count_step {crew : Crew σ} {id : Nat} {d : Dispatch}
    (found : crew.dispatches.get? id = some d) (kind : Dispatch → Bool) (desk : Desk σ)
    (later : Dispatch) :
    { crew with desk, dispatches := crew.dispatches.insert id later }.count kind + (kind d).toNat =
      crew.count kind + (kind later).toNat :=
  SortedMap.countP_values_insert_of_some found kind later

/-- The counters account for the dispatches, and for the letters handed over so far. -/
structure Tallied (c : Consumer σ) (handed : List DeadLetter) (crew : Crew σ) : Prop where
  /-- What is counted as received and not as finished is pending. -/
  received : crew.desk.stats.received = crew.desk.stats.finished + crew.count (·.phase.isPending)
  /-- Each counter tells how many dispatches are counted under it. -/
  at_ : ∀ counter, crew.desk.stats.at_ counter = crew.count (·.countsAs counter)
  /-- A message counted as set aside has been handed over or is about to be. -/
  setAside : crew.desk.stats.escalated + crew.desk.stats.deadLettered =
    handed.length + crew.count (·.isShelving)
  /-- What is handed over is kept, if letters are. -/
  letters : crew.desk.letters = if c.keepsLetters then handed else []

section Next

variable {c : Consumer σ} {letters : List DeadLetter} {crew : Crew σ}

/-- Receiving a message counts nothing: its dispatch has not begun. -/
theorem Tallied.receive (tallied : Tallied c letters crew) {id : Nat}
    (free : crew.dispatches.get? id = none) (m : Message) :
    Tallied c letters { crew with dispatches := crew.dispatches.insert id { message := m } } where
  received := by
    rw [count_receive free]
    exact tallied.received
  at_ counter := by
    rw [count_receive free]
    exact tallied.at_ counter
  setAside := by
    rw [count_receive free]
    exact tallied.setAside
  letters := tallied.letters

/-- A step moves its dispatch from one kind to another, and the counters along with it. -/
theorem Tallied.step (tallied : Tallied c letters crew) {id : Nat} {d : Dispatch}
    (found : crew.dispatches.get? id = some d) (sound : d.phase.Sound) :
    Tallied c (letters ++ d.phase.letter?.toList)
      { crew with
        desk := (d.step c crew.now crew.desk).1
        dispatches := crew.dispatches.insert id (d.step c crew.now crew.desk).2 } where
  received := by
    have balance := Dispatch.balance_step c crew.now crew.desk sound
    have counted := count_step found (·.phase.isPending) (d.step c crew.now crew.desk).1
      (d.step c crew.now crew.desk).2
    have before := tallied.received
    dsimp only at counted ⊢
    omega
  at_ counter := by
    have raised := Dispatch.at_step c crew.now crew.desk sound counter
    have counted := count_step found (·.countsAs counter) (d.step c crew.now crew.desk).1
      (d.step c crew.now crew.desk).2
    have before := tallied.at_ counter
    dsimp only at counted ⊢
    omega
  setAside := by
    have named := Dispatch.setAside_step c crew.now crew.desk sound
    have counted := count_step found (·.isShelving) (d.step c crew.now crew.desk).1
      (d.step c crew.now crew.desk).2
    have before := tallied.setAside
    have given : d.phase.letter?.toList.length = d.isShelving.toNat := by
      unfold Dispatch.isShelving
      cases d.phase.letter? <;> rfl
    rw [List.length_append, given]
    dsimp only at counted ⊢
    omega
  letters := by
    rw [Dispatch.letters_step, tallied.letters]
    cases c.keepsLetters <;> simp

theorem Tallied.next (tallied : Tallied c letters crew)
    (sound : ∀ id d, crew.dispatches.get? id = some d → d.phase.Sound) (move : Move σ) :
    Tallied c (letters ++ (letter? crew move).toList) (Crew.next c crew move) := by
  cases move with
  | receive id m =>
    simp only [letter?, Option.toList_none, List.append_nil]
    cases found : crew.dispatches.get? id with
    | none => simpa [Crew.next, found] using tallied.receive found m
    | some d => simpa [Crew.next, found] using tallied
  | step id =>
    cases found : crew.dispatches.get? id with
    | none => simpa [Crew.next, letter?, found] using tallied
    | some d =>
      by_cases ready : d.ready crew.now = true
      · rw [next_step_of_ready c found ready, letter?, found]
        exact tallied.step found (sound id d found)
      · -- a dispatch that can hand over its letter can make a step
        have none_ : d.phase.letter? = none := by
          unfold Dispatch.ready at ready
          unfold Dispatch.Phase.letter?
          grind
        simpa [Crew.next, letter?, found, ready, none_] using tallied
  | pass time => simpa [letter?] using ⟨tallied.received, tallied.at_, tallied.setAside, tallied.letters⟩
  | poke f => simpa [letter?] using ⟨tallied.received, tallied.at_, tallied.setAside, tallied.letters⟩

end Next

theorem sound_run (c : Consumer σ) (moves : List (Move σ)) (s : σ) (id : Nat) (d : Dispatch)
    (found : (run c moves (opened s)).dispatches.get? id = some d) : d.phase.Sound :=
  (Dispatch.kept_sound c).of_get? found

/-- The counters account for the dispatches after every run. -/
theorem tallied_run (c : Consumer σ) (moves : List (Move σ)) (s : σ) :
    Tallied c (handed c moves (opened s)) (run c moves (opened s)) := by
  induction moves using List.reverseRec with
  | nil => exact ⟨rfl, fun counter => by cases counter <;> rfl, rfl, by simp [handed, opened]⟩
  | append_singleton moves move ih =>
    rw [run_append, run_cons, run_nil, handed_append]
    have one : handed c [move] (run c moves (opened s)) =
        (letter? (run c moves (opened s)) move).toList := by simp [handed]
    rw [one]
    exact ih.next (sound_run c moves s) move

/-- The dispatch with this number is there, and counted as finished under this counter. -/
def countsAs (crew : Crew σ) (id : Nat) (counter : Counter) : Bool :=
  (crew.dispatches.get? id).any (·.countsAs counter)

/-- A move of a dispatch raises a counter if and only if it is counted under it from then on. -/
theorem at_next (c : Consumer σ) {crew : Crew σ}
    (sound : ∀ id d, crew.dispatches.get? id = some d → d.phase.Sound) (id : Nat)
    (counter : Counter) (move : Move σ) :
    (if move.isStep id then
        (next c crew move).desk.stats.at_ counter - crew.desk.stats.at_ counter
      else 0) + (crew.countsAs id counter).toNat = ((next c crew move).countsAs id counter).toNat := by
  unfold countsAs
  rcases next_cases c crew move with same | ⟨n, m, rfl, free, made⟩ | ⟨n, d, rfl, found, -, made⟩ |
    ⟨time, rfl, made⟩ | ⟨f, rfl, made⟩
  · rw [same]
    simp
  · rw [made, SortedMap.get?_insert]
    by_cases its : id = n
    · subst n
      simp [free, Move.isStep, Dispatch.countsAs, Dispatch.Phase.counter?]
    · simp [Move.isStep, its]
  · rw [made, SortedMap.get?_insert]
    by_cases its : n = id
    · subst n
      have raised := Dispatch.at_step c crew.now crew.desk (sound id d found) counter
      have stays : d.countsAs counter = true → _ := Dispatch.countsAs_step c crew.now crew.desk
      simp only [Move.isStep, found, beq_self_eq_true, if_true, Option.any_some]
      cases before : d.countsAs counter <;> simp_all
    · simp [Move.isStep, its, Ne.symm its]
  · rw [made]
    simp [Move.isStep]
  · rw [made]
    simp [Move.isStep]

/-- The steps of a dispatch raise the counter under which it is counted by one, and no other. -/
theorem raised_eq (c : Consumer σ) (id : Nat) (counter : Counter) (moves : List (Move σ)) (s : σ) :
    raised c id counter moves (opened s) = ((run c moves (opened s)).countsAs id counter).toNat := by
  induction moves using List.reverseRec with
  | nil => rfl
  | append_singleton moves move ih =>
    have last := at_next c (sound_run c moves s) id counter move
    rw [raised_append, ih, run_append, run_cons, run_nil, ← last]
    simp only [raised]
    omega

/-- No move lowers a counter. -/
theorem at_le_next (c : Consumer σ) {crew : Crew σ}
    (sound : ∀ id d, crew.dispatches.get? id = some d → d.phase.Sound) (counter : Counter)
    (move : Move σ) :
    crew.desk.stats.at_ counter ≤ (next c crew move).desk.stats.at_ counter := by
  rcases next_cases c crew move with same | ⟨n, m, rfl, -, made⟩ | ⟨n, d, rfl, found, -, made⟩ |
    ⟨time, rfl, made⟩ | ⟨f, rfl, made⟩
  · exact Nat.le_of_eq (by rw [same])
  · exact Nat.le_of_eq (by rw [made])
  · have raised := Dispatch.at_step c crew.now crew.desk (sound n d found) counter
    have stays : d.countsAs counter = true → _ := Dispatch.countsAs_step c crew.now crew.desk
    rw [made]
    cases before : d.countsAs counter <;> simp_all
  · exact Nat.le_of_eq (by rw [made])
  · exact Nat.le_of_eq (by rw [made])

/-- Take any run of any consumer: any handlers, any answers of its backend, failures among them, and any
order in which any number of dispatches make their steps. What is counted as received is what is counted
as finished and the dispatches that are pending. Each counter tells how many dispatches are counted under it,
and no move lowers one. The steps of a finished dispatch raised the counter that its result names by one,
and no other. All letters handed over so far, and those about to be, are counted as escalated or as set
aside for good; so once no dispatch is in progress, the letters are as many as these. -/
theorem counters_conserved (c : Consumer σ) (moves : List (Move σ)) (s : σ) :
    let crew := run c moves (opened s)
    let letters := handed c moves (opened s)
    crew.desk.stats.received = crew.desk.stats.finished + crew.count (·.phase.isPending) ∧
    (∀ counter, crew.desk.stats.at_ counter = crew.count (·.countsAs counter)) ∧
    (∀ counter move,
      crew.desk.stats.at_ counter ≤ (next c crew move).desk.stats.at_ counter) ∧
    (∀ id d result, crew.dispatches.get? id = some d → d.result? = some result →
      ∀ counter, raised c id counter moves (opened s) =
        if counter = .ofResult result then 1 else 0) ∧
    crew.desk.stats.escalated + crew.desk.stats.deadLettered =
      letters.length + crew.count (·.isShelving) ∧
    (crew.count (·.isInProgress) = 0 →
      letters.length = crew.desk.stats.escalated + crew.desk.stats.deadLettered) ∧
    crew.desk.letters = if c.keepsLetters then letters else [] := by
  intro crew letters
  have tallied : Tallied c letters crew := tallied_run c moves s
  refine ⟨tallied.received, tallied.at_, at_le_next c (sound_run c moves s), ?_, tallied.setAside, ?_,
    tallied.letters⟩
  · intro id d result found ended counter
    have there : (run c moves (opened s)).dispatches.get? id = some d := found
    rw [raised_eq, countsAs, there, Option.any_some, Dispatch.countsAs,
      Dispatch.counter?_of_result? ended]
    by_cases named : Counter.ofResult result = counter
    · simp [named]
    · simp [named, Ne.symm named]
  · intro idle
    have none_ : crew.count (·.isShelving) = 0 := by
      have among : crew.count (·.isShelving) ≤ crew.count (·.isInProgress) :=
        List.countP_mono_left fun d _ => Dispatch.isInProgress_of_isShelving
      omega
    have setAside := tallied.setAside
    omega

section Samples

open Fixtures

/-- A company is created but the write fails, another comes without its name, a message is about something
nobody handles, and a fourth message is still to be merged. -/
def mixedDay : List (Move Store) :=
  [ .receive 0 (companyCreated "c-1" "Acme" (stamp 1)),
    .receive 1 (acmeUpdated ∅ (stamp 2)),
    .receive 2 { acmeUpdated ∅ (stamp 2) with entityKind := "planet" },
    .receive 3 (companyCreated "c-2" "Other" (stamp 1)),
    .poke (·.failNextWrites 1) ] ++
    steps 0 1 ++ steps 3 1 ++ steps 1 3 ++ steps 2 2 ++ steps 0 3 ++ steps 1 1

theorem counters_conserved_mixedDay :
    (run service mixedDay (opened {})).desk.stats.received = 4 ∧
    (run service mixedDay (opened {})).count (·.phase.isPending) = 1 ∧
    raised service 0 .transientFailures mixedDay (opened {}) = 1 ∧
    raised service 0 .applied mixedDay (opened {}) = 0 ∧
    (handed service mixedDay (opened {})).length = 1 := by
  obtain ⟨balance, -, -, raises, letters, -⟩ := counters_conserved service mixedDay {}
  have failed : ((run service mixedDay (opened {})).dispatches.get? 0).bind (·.result?) =
      some (.error Store.injectedFailure) := by rfl
  obtain ⟨d, found, ended⟩ := Option.bind_eq_some_iff.1 failed
  have received : (run service mixedDay (opened {})).desk.stats.received = 4 := by decide +kernel
  have finished : (run service mixedDay (opened {})).desk.stats.finished = 3 := by decide +kernel
  have setAside : (run service mixedDay (opened {})).desk.stats.escalated +
      (run service mixedDay (opened {})).desk.stats.deadLettered = 1 := by decide +kernel
  have shelving : (run service mixedDay (opened {})).count (·.isShelving) = 0 := by decide +kernel
  refine ⟨received, by omega, ?_, ?_, by omega⟩
  · exact raises 0 d _ found ended .transientFailures
  · exact raises 0 d _ found ended .applied

end Samples

end Crew

end Replica

import Replica.Proofs.Records
import Replica.Dispatch.Basic
import Mathlib.Data.List.Induction
/-! Dispatches at work side by side. A crew holds the dispatches of one desk, and a list of moves says
in which order messages are received, dispatches make their atomic steps, time passes and the store
is changed from outside. Every interleaving of any number of dispatches is such a list; what holds
after each list of moves holds under all of them. -/
namespace Replica

/-- Dispatches at work at one desk, each under a number of its own, finished ones included. -/
structure Crew (σ : Type) where
  /-- What the dispatches share. -/
  desk : Desk σ
  /-- The time. -/
  now : Instant := 0
  /-- The dispatches by number. -/
  dispatches : SortedMap Nat Dispatch := ∅

namespace Dispatch

variable {σ : Type} {c : Consumer σ}

@[simp]
theorem message_step (now : Instant) (desk : Desk σ) (d : Dispatch) :
    (d.step c now desk).2.message = d.message := by
  unfold step
  split <;> try rfl
  split <;> rfl

/-- A step depends on nothing of the desk but the store. -/
theorem step_congr (c : Consumer σ) (now : Instant) {desk other : Desk σ}
    (same : desk.store = other.store) (d : Dispatch) :
    (d.step c now desk).1.store = (d.step c now other).1.store ∧
      (d.step c now desk).2 = (d.step c now other).2 := by
  unfold step
  cases phase : d.phase with
  | shelving letter result => cases kept : c.keepsLetters <;> simp [Desk.shelve, same]
  | _ => simp [same]

/-- What a step counts depends on nothing of the desk but the counters. -/
theorem stats_congr (c : Consumer σ) (now : Instant) {desk other : Desk σ} (same : desk.stats = other.stats)
    (d : Dispatch) : (d.step c now desk).1.stats = (d.step c now other).1.stats := by
  unfold step
  cases phase : d.phase with
  | shelving letter result => cases kept : c.keepsLetters <;> simp [Desk.shelve, same]
  | _ => simp [same]

end Dispatch

namespace Crew

/-- What can happen next. -/
inductive Move (σ : Type) where
  /-- A message is received, under a number that is free. -/
  | receive (id : Nat) (m : Message)
  /-- A dispatch makes its next atomic step, if it can. -/
  | step (id : Nat)
  /-- Time passes. -/
  | pass (time : Duration)
  /-- The state of the store is changed from outside. -/
  | poke (f : σ → σ)

/-- Every change from outside is one that `allowed` relates. -/
def Move.Within {σ : Type} (allowed : σ → σ → Prop) : Move σ → Prop
  | poke f => ∀ s, allowed s (f s)
  | _ => True

/-- The move is a step of this dispatch. -/
def Move.isStep {σ : Type} (id : Nat) : Move σ → Bool
  | step n => n == id
  | _ => false

variable {σ : Type}

/-- A crew before any message. -/
def opened (s : σ) : Crew σ := { desk := { store := s } }

/-- Makes a move. -/
def next (c : Consumer σ) (crew : Crew σ) : Move σ → Crew σ
  | .receive id m =>
    match crew.dispatches.get? id with
    | none => { crew with dispatches := crew.dispatches.insert id { message := m } }
    | some _ => crew
  | .step id =>
    match crew.dispatches.get? id with
    | none => crew
    | some d =>
      if d.ready crew.now then
        let (desk, d) := d.step c crew.now crew.desk
        { crew with desk, dispatches := crew.dispatches.insert id d }
      else crew
  | .pass time => { crew with now := crew.now + time }
  | .poke f => { crew with desk := { crew.desk with store := f crew.desk.store } }

/-- Makes moves one after another. -/
def run (c : Consumer σ) (moves : List (Move σ)) (crew : Crew σ) : Crew σ :=
  moves.foldl (next c) crew

/-- The messages received so far. -/
def messages (crew : Crew σ) : List Message := (SortedMap.values crew.dispatches).map (·.message)

/-- Every dispatch has ended. -/
def Finished (crew : Crew σ) : Prop :=
  ∀ id d, crew.dispatches.get? id = some d → d.result?.isSome = true

@[simp]
theorem run_nil (c : Consumer σ) (crew : Crew σ) : run c [] crew = crew := rfl

@[simp]
theorem run_cons (c : Consumer σ) (move : Move σ) (moves : List (Move σ)) (crew : Crew σ) :
    run c (move :: moves) crew = run c moves (next c crew move) := rfl

@[simp]
theorem run_append (c : Consumer σ) (first second : List (Move σ)) (crew : Crew σ) :
    run c (first ++ second) crew = run c second (run c first crew) :=
  List.foldl_append

theorem mem_messages_iff {crew : Crew σ} {m : Message} :
    m ∈ crew.messages ↔ ∃ id d, crew.dispatches.get? id = some d ∧ d.message = m := by
  constructor
  · intro received
    obtain ⟨d, among, rfl⟩ := List.mem_map.1 received
    obtain ⟨id, found⟩ := SortedMap.mem_values_iff.1 among
    exact ⟨id, d, found, rfl⟩
  · rintro ⟨id, d, found, rfl⟩
    exact List.mem_map.2 ⟨d, SortedMap.mem_values_iff.2 ⟨id, found⟩, rfl⟩

theorem finished_iff {crew : Crew σ} :
    crew.Finished ↔ ∀ d ∈ SortedMap.values crew.dispatches, d.result?.isSome = true := by
  simp only [Finished, SortedMap.mem_values_iff]
  exact ⟨fun ended d ⟨id, found⟩ => ended id d found, fun ended id d found => ended d ⟨id, found⟩⟩

instance (crew : Crew σ) : Decidable crew.Finished := decidable_of_iff _ finished_iff.symm

/-! ### What a move does -/

/-- Everything that a move can do. -/
theorem next_cases (c : Consumer σ) (crew : Crew σ) (move : Move σ) :
    next c crew move = crew ∨
    (∃ id m, move = .receive id m ∧ crew.dispatches.get? id = none ∧
      next c crew move = { crew with dispatches := crew.dispatches.insert id { message := m } }) ∨
    (∃ id d, move = .step id ∧ crew.dispatches.get? id = some d ∧ d.ready crew.now = true ∧
      next c crew move =
        { crew with
          desk := (d.step c crew.now crew.desk).1
          dispatches := crew.dispatches.insert id (d.step c crew.now crew.desk).2 }) ∨
    (∃ time, move = .pass time ∧ next c crew move = { crew with now := crew.now + time }) ∨
    (∃ f, move = .poke f ∧
      next c crew move = { crew with desk := { crew.desk with store := f crew.desk.store } }) := by
  cases move with
  | receive id m =>
    cases found : crew.dispatches.get? id with
    | none => exact .inr (.inl ⟨id, m, rfl, found, by simp [next, found]⟩)
    | some d => exact .inl (by simp [next, found])
  | step id =>
    cases found : crew.dispatches.get? id with
    | none => exact .inl (by simp [next, found])
    | some d =>
      by_cases ready : d.ready crew.now = true
      · exact .inr (.inr (.inl ⟨id, d, rfl, found, ready, by simp [next, found, ready]⟩))
      · exact .inl (by simp [next, found, ready])
  | pass time => exact .inr (.inr (.inr (.inl ⟨time, rfl, rfl⟩)))
  | poke f => exact .inr (.inr (.inr (.inr ⟨f, rfl, rfl⟩)))

/-- A dispatch that can make its step makes it. -/
theorem next_step_of_ready (c : Consumer σ) {crew : Crew σ} {id : Nat} {d : Dispatch}
    (found : crew.dispatches.get? id = some d) (ready : d.ready crew.now = true) :
    next c crew (.step id) =
      { crew with
        desk := (d.step c crew.now crew.desk).1
        dispatches := crew.dispatches.insert id (d.step c crew.now crew.desk).2 } := by
  simp [next, found, ready]

theorem get?_receive_of_free (c : Consumer σ) {crew : Crew σ} {id : Nat} (free : crew.dispatches.get? id = none)
    (m : Message) : (next c crew (.receive id m)).dispatches.get? id = some { message := m } := by
  simp [next, free]

/-- What a dispatch is after a move: what it was, what its own step made of it, or new. -/
theorem get?_next_cases {c : Consumer σ} {crew : Crew σ} {move : Move σ} {id : Nat} {d : Dispatch}
    (found : (next c crew move).dispatches.get? id = some d) :
    crew.dispatches.get? id = some d ∨
    (∃ m, move = .receive id m ∧ crew.dispatches.get? id = none ∧ d = { message := m }) ∨
    (∃ before, move = .step id ∧ crew.dispatches.get? id = some before ∧
      before.ready crew.now = true ∧ d = (before.step c crew.now crew.desk).2) := by
  rcases next_cases c crew move with same | ⟨n, m, rfl, free, made⟩ |
    ⟨n, e, rfl, there, ready, made⟩ | ⟨time, rfl, made⟩ | ⟨f, rfl, made⟩
  · exact .inl (same ▸ found)
  · rw [made, SortedMap.get?_insert] at found
    split at found
    · subst n
      exact .inr (.inl ⟨m, rfl, free, (Option.some.inj found).symm⟩)
    · exact .inl found
  · rw [made, SortedMap.get?_insert] at found
    split at found
    · subst n
      exact .inr (.inr ⟨e, rfl, there, ready, (Option.some.inj found).symm⟩)
    · exact .inl found
  · rw [made] at found
    exact .inl found
  · rw [made] at found
    exact .inl found

theorem exists_get?_receive (c : Consumer σ) (crew : Crew σ) (id : Nat) (m : Message) :
    ∃ d, (next c crew (.receive id m)).dispatches.get? id = some d := by
  cases found : crew.dispatches.get? id with
  | none => exact ⟨{ message := m }, by simp [next, found]⟩
  | some d => exact ⟨d, by simp [next, found]⟩

/-- A dispatch is there because its message was received. -/
theorem receive_mem_of_get? {c : Consumer σ} {moves : List (Move σ)} {s : σ} {id : Nat} {d : Dispatch}
    (found : (run c moves (opened s)).dispatches.get? id = some d) : .receive id d.message ∈ moves := by
  induction moves using List.reverseRec generalizing d with
  | nil => cases found
  | append_singleton moves move ih =>
    rw [run_append, run_cons, run_nil] at found
    rcases get?_next_cases found with still | ⟨m, rfl, -, rfl⟩ | ⟨before, rfl, there, -, rfl⟩
    · exact List.mem_append_left _ (ih still)
    · exact List.mem_append_right _ (List.mem_singleton_self _)
    · rw [Dispatch.message_step]
      exact List.mem_append_left _ (ih there)

end Crew

/-! ### A consumer on a store -/

/-- The consumer loads from and writes to a store, which is part of what it works on. Looking for an
entity, however that is done, leaves the store alone. -/
structure Consumer.OnStore {σ : Type} (c : Consumer σ) (store : σ → Store) : Prop where
  /-- Loading never fails and changes nothing. -/
  load : ∀ key s, c.backend.load key s = (.ok ((store s).load key), s)
  /-- The answer to a write is the store's. -/
  upsert : ∀ record s, (c.backend.upsert record s).1 = ((store s).upsertIfNewer record).1
  /-- What a write leaves is what it leaves of the store. -/
  store_upsert : ∀ record s,
    store (c.backend.upsert record s).2 = ((store s).upsertIfNewer record).2
  /-- A look leaves the store alone. -/
  store_probe : ∀ key s, store (c.backend.probe key s).2 = store s

/-- A consumer that also looks for entities in its store works on that store. -/
theorem Consumer.onStore_of_backend {c : Consumer Store} (backend : c.backend = Store.backend) :
    c.OnStore id := by
  constructor <;> intros <;> simp [backend, Store.backend, Backend.probeByLoad]

namespace Dispatch

variable {σ : Type} {c : Consumer σ} {store : σ → Store}

/-- A step changes nothing of a dispatch but its phase. -/
theorem step_eq_of_phase {now : Instant} {desk : Desk σ} {d : Dispatch} {phase : Phase}
    (reached : (d.step c now desk).2.phase = phase) :
    (d.step c now desk).2 = { d with phase } := by
  cases made : (d.step c now desk).2 with
  | mk message reachedPhase =>
    obtain rfl : message = d.message := by
      rw [← d.message_step now desk, made]
    rw [← reached, made]

/-- Of all steps of a dispatch only the write changes the store. -/
theorem store_step (on : c.OnStore store) (now : Instant) (desk : Desk σ) (d : Dispatch) :
    store (d.step c now desk).1.store =
      match d.phase with
      | .writing record _ => ((store desk.store).upsertIfNewer record).2
      | _ => store desk.store := by
  unfold step
  cases phase : d.phase with
  | probing w => exact on.store_probe ..
  | loading schema => simp [on.load]
  | writing record outcome => exact on.store_upsert ..
  | shelving letter result => cases kept : c.keepsLetters <;> simp [Desk.shelve]
  | _ => rfl

/-- A step of a dispatch only advances the records. -/
theorem advances_step (on : c.OnStore store) (now : Instant) (desk : Desk σ) (d : Dispatch) :
    Records.Advances (store desk.store).records (store (d.step c now desk).1.store).records := by
  rw [store_step on]
  split
  · rename_i record _ _
    rcases (store desk.store).upsertIfNewer_cases record with ⟨-, same⟩ | ⟨-, written⟩
    · exact same ▸ Records.Advances.refl _
    · exact written ▸ Records.advances_upsert _ _
  · exact Records.Advances.refl _

end Dispatch

namespace Crew

variable {σ : Type} {c : Consumer σ} {store : σ → Store} {moves : List (Move σ)}

/-- The records of the store. -/
def records (store : σ → Store) (crew : Crew σ) : Records := (store crew.desk.store).records

/-- Nobody but the dispatches writes records. Writes may be made to fail, and whatever else a consumer
works on may change. -/
abbrev KeepsRecords (store : σ → Store) : Move σ → Prop :=
  Move.Within fun s t => (store t).records = (store s).records

/-- Every move only advances the records. -/
theorem advances_next (on : c.OnStore store) (crew : Crew σ) {move : Move σ}
    (keeps : KeepsRecords store move) :
    Records.Advances (crew.records store) ((next c crew move).records store) := by
  rcases next_cases c crew move with same | ⟨id, m, rfl, -, made⟩ | ⟨id, d, rfl, -, -, made⟩ |
    ⟨time, rfl, made⟩ | ⟨f, rfl, made⟩
  · rw [same]
    exact Records.Advances.refl _
  · rw [made]
    exact Records.Advances.refl _
  · rw [made]
    exact d.advances_step on crew.now crew.desk
  · rw [made]
    exact Records.Advances.refl _
  · have unchanged : (store (f crew.desk.store)).records = (store crew.desk.store).records :=
      keeps crew.desk.store
    rw [made, records, records, unchanged]
    exact Records.Advances.refl _

/-- A run only advances the records. -/
theorem advances_run (on : c.OnStore store) (keeps : ∀ move ∈ moves, KeepsRecords store move)
    (crew : Crew σ) : Records.Advances (crew.records store) ((run c moves crew).records store) := by
  induction moves generalizing crew with
  | nil => exact Records.Advances.refl _
  | cons move rest ih =>
    obtain ⟨first, later⟩ := List.forall_mem_cons.1 keeps
    exact (advances_next on crew first).trans (ih later _)

/-- No move takes a dispatch away, and what its own steps keep of it stays. -/
theorem get?_next_of_get? {keeps : Dispatch → Prop} {crew : Crew σ}
    (own : ∀ d, keeps d → keeps (Dispatch.step c crew.now crew.desk d).2) (move : Move σ) {id : Nat}
    {d : Dispatch} (found : crew.dispatches.get? id = some d) (holds : keeps d) :
    ∃ later, (next c crew move).dispatches.get? id = some later ∧ keeps later := by
  rcases next_cases c crew move with same | ⟨n, m, rfl, free, made⟩ | ⟨n, e, rfl, there, -, made⟩ |
    ⟨time, rfl, made⟩ | ⟨f, rfl, made⟩
  · exact ⟨d, by rw [same, found], holds⟩
  · have other : id ≠ n := by
      rintro rfl
      simp [found] at free
    exact ⟨d, by rw [made, SortedMap.get?_insert_of_ne _ _ other, found], holds⟩
  · by_cases same : id = n
    · subst n
      obtain rfl : d = e := Option.some.inj (found.symm.trans there)
      exact ⟨_, by rw [made, SortedMap.get?_insert_self], own d holds⟩
    · exact ⟨d, by rw [made, SortedMap.get?_insert_of_ne _ _ same, found], holds⟩
  · exact ⟨d, by rw [made, found], holds⟩
  · exact ⟨d, by rw [made, found], holds⟩

theorem get?_run_of_get? {keeps : Dispatch → Prop}
    (own : ∀ now desk d, keeps d → keeps (Dispatch.step c now desk d).2) (moves : List (Move σ))
    {crew : Crew σ} {id : Nat} {d : Dispatch} (found : crew.dispatches.get? id = some d)
    (holds : keeps d) :
    ∃ later, (run c moves crew).dispatches.get? id = some later ∧ keeps later := by
  induction moves generalizing crew d with
  | nil => exact ⟨d, found, holds⟩
  | cons move rest ih =>
    obtain ⟨middle, there, still⟩ := get?_next_of_get? (own _ _) move found holds
    exact ih there still

/-! ### What holds of every dispatch -/

/-- A property of dispatches, beside a sound state, that holds when a message arrives and that no step
takes away, neither the dispatch's own nor another's; and the state stays sound. -/
structure Kept (c : Consumer σ) (sound : σ → Prop) (holds : σ → Dispatch → Prop) : Prop where
  /-- A step of a dispatch leaves the state sound. -/
  sound_step : ∀ now desk d, sound desk.store → holds desk.store d →
    sound (Dispatch.step c now desk d).1.store
  /-- The property holds when the message arrives. -/
  arrives : ∀ s m, sound s → holds s { message := m }
  /-- The dispatch's own step keeps it. -/
  own : ∀ now desk d, sound desk.store → holds desk.store d →
    holds (d.step c now desk).1.store (d.step c now desk).2
  /-- A step of another dispatch keeps it. -/
  other : ∀ now desk d e, sound desk.store → holds desk.store d → holds desk.store e →
    holds (Dispatch.step c now desk e).1.store d

/-- The state is sound, and every dispatch has a property beside it. -/
def Throughout (sound : σ → Prop) (holds : σ → Dispatch → Prop) (crew : Crew σ) : Prop :=
  sound crew.desk.store ∧
    ∀ id d, crew.dispatches.get? id = some d → holds crew.desk.store d

variable {sound : σ → Prop} {holds : σ → Dispatch → Prop} {allowed : σ → σ → Prop}

theorem Kept.next (kept : Kept c sound holds)
    (outside : ∀ s t, allowed s t → sound s → sound t ∧ ∀ d, holds s d → holds t d)
    {move : Move σ} (within : Move.Within allowed move) {crew : Crew σ}
    (before : Throughout sound holds crew) : Throughout sound holds (Crew.next c crew move) := by
  obtain ⟨fine, all⟩ := before
  rcases next_cases c crew move with same | ⟨n, m, rfl, -, made⟩ | ⟨n, e, rfl, there, -, made⟩ |
    ⟨time, rfl, made⟩ | ⟨f, rfl, made⟩
  · rw [same]
    exact ⟨fine, all⟩
  · rw [made]
    refine ⟨fine, fun id d found => ?_⟩
    rw [SortedMap.get?_insert] at found
    split at found
    · obtain rfl := Option.some.inj found
      exact kept.arrives _ m fine
    · exact all id d found
  · rw [made]
    refine ⟨kept.sound_step _ _ e fine (all n e there), fun id d found => ?_⟩
    -- a dispatch is the one that made the step, or one that looks on
    rw [SortedMap.get?_insert] at found
    split at found
    · obtain rfl := Option.some.inj found
      exact kept.own _ _ e fine (all n e there)
    · exact kept.other _ _ d e fine (all id d found) (all n e there)
  · rw [made]
    exact ⟨fine, all⟩
  · rw [made]
    obtain ⟨still, keeps⟩ := outside _ _ (within crew.desk.store) fine
    exact ⟨still, fun id d found => keeps d (all id d found)⟩

/-- What is kept holds after every run that began before any message, if changes from outside keep it
too. -/
theorem Kept.run (kept : Kept c sound holds)
    (outside : ∀ s t, allowed s t → sound s → sound t ∧ ∀ d, holds s d → holds t d)
    (within : ∀ move ∈ moves, Move.Within allowed move) {s : σ} (fine : sound s) :
    Throughout sound holds (Crew.run c moves (opened s)) := by
  suffices ∀ crew, Throughout sound holds crew → Throughout sound holds (Crew.run c moves crew) from
    this _ ⟨fine, fun _ _ none => by simp [opened] at none⟩
  -- the moves are made from the first on, so the crew that they start from has to be arbitrary
  induction moves with
  | nil => exact fun _ before => before
  | cons move rest ih =>
    obtain ⟨first, later⟩ := List.forall_mem_cons.1 within
    exact fun crew before => ih later _ (kept.next outside first before)

end Crew

end Replica

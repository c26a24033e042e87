import Replica.Proofs.Solo
import Replica.Proofs.Tally
import Replica.Proofs.Transitions
/-! What one dispatch does during a run. Whatever happens around it, it makes steps of its own, each at some
moment and at a desk as others left it. What these steps keep, and the time that passes between them, holds at
the end of the run of all that the dispatch has done. -/
namespace Replica

theorem filterMap_concat {α β : Type} (f : α → Option β) (l : List α) (a : α) :
    (l ++ [a]).filterMap f = l.filterMap f ++ (f a).toList := by
  cases made : f a <;> simp [List.filterMap_append, made]

namespace Dispatch

variable {σ : Type}

/-- The dispatch ends this way, and these letters were handed over so far. -/
def Ends (ending : Ending) (letters : List DeadLetter) (d : Dispatch) : Prop :=
  match d.phase with
  | .closing reached => reached = ending ∧ letters = []
  | .shelving letter result =>
    ending.letter? d.message = some letter ∧ result = ending.result d.message ∧ letters = []
  | .done result => result = ending.result d.message ∧ letters = (ending.letter? d.message).toList
  | _ => False

variable {ending : Ending} {letters : List DeadLetter} {d : Dispatch}

/-- A dispatch that ends goes on to end the same way. -/
theorem Ends.step (ends : d.Ends ending letters) (c : Consumer σ) (now : Instant) (desk : Desk σ) :
    (d.step c now desk).2.Ends ending (letters ++ d.phase.letter?.toList) := by
  unfold Ends at ends
  unfold Dispatch.step
  cases phase : d.phase with
  | closing reached =>
    simp only [phase] at ends
    obtain ⟨rfl, rfl⟩ := ends
    cases letter : reached.letter? d.message <;> simp [Ends, letter, Phase.letter?]
  | shelving letter result =>
    simp only [phase] at ends
    obtain ⟨set_aside, rfl, rfl⟩ := ends
    simp [Ends, set_aside, Phase.letter?]
  | done result =>
    simp only [phase] at ends
    simpa [Ends, phase, Phase.letter?] using ends
  | _ => simp [phase] at ends

theorem Ends.verdict? (ends : d.Ends ending letters) : d.verdict? = some (ending.result d.message) := by
  unfold Ends at ends
  unfold Dispatch.verdict?
  cases phase : d.phase <;> simp_all

theorem Ends.of_result? (ends : d.Ends ending letters) {result : DispatchResult} (given : d.result? = some result) :
    result = ending.result d.message ∧ letters = (ending.letter? d.message).toList := by
  unfold Ends at ends
  unfold result? at given
  cases phase : d.phase <;> simp_all

end Dispatch

/-- The letter that the step hands over. -/
def Lone.letter? {σ : Type} (s : Lone σ) : Option DeadLetter := s.dispatch.phase.letter?

namespace Crew

variable {σ : Type} {c : Consumer σ} {id : Nat}

/-- The step that a dispatch makes by this move, if it is a step of its own and it can make it: what the dispatch
is before, at its time and at its desk. -/
def ownStep? (id : Nat) (crew : Crew σ) (move : Move σ) : Option (Lone σ) :=
  if move.isStep id then
    (crew.dispatches.get? id).bind fun d =>
      if d.ready crew.now then some ⟨crew.now, crew.desk, d⟩ else none
  else none

/-- The steps that a dispatch makes during a run, in order. -/
def journal (c : Consumer σ) (id : Nat) : List (Move σ) → Crew σ → List (Lone σ)
  | [], _ => []
  | move :: rest, crew => (ownStep? id crew move).toList ++ journal c id rest (next c crew move)

/-- Time passes during these moves only as the dispatch allows it, from when to when, as soon as it is there. -/
def Lets (c : Consumer σ) (id : Nat) (allows : Dispatch → Instant → Instant → Prop) :
    List (Move σ) → Crew σ → Prop
  | [], _ => True
  | move :: rest, crew =>
    (∀ d ∈ crew.dispatches.get? id, allows d crew.now (next c crew move).now) ∧
      Lets c id allows rest (next c crew move)

instance (c : Consumer σ) (id : Nat) (allows : Dispatch → Instant → Instant → Prop)
    [∀ d now later, Decidable (allows d now later)] :
    (moves : List (Move σ)) → (crew : Crew σ) → Decidable (Lets c id allows moves crew)
  | [], _ => inferInstanceAs (Decidable True)
  | move :: rest, crew =>
    have : Decidable (Lets c id allows rest (next c crew move)) := instDecidableLets c id allows rest _
    inferInstanceAs (Decidable (_ ∧ _))

/-- What a dispatch's own steps keep of it, beside what it has done so far, and what the time that passes keeps. -/
theorem exists_journal {allows : Dispatch → Instant → Instant → Prop}
    (holds : Instant → List (Lone σ) → Dispatch → Prop)
    (own : ∀ now desk past d, d.ready now = true → holds now past d →
      holds now (past ++ [⟨now, desk, d⟩]) (d.step c now desk).2)
    (rests : ∀ now later past d, allows d now later → holds now past d → holds later past d)
    {moves : List (Move σ)} {crew : Crew σ} (lets : Lets c id allows moves crew) {d : Dispatch}
    (found : crew.dispatches.get? id = some d) (before : holds crew.now [] d) :
    ∃ e, (run c moves crew).dispatches.get? id = some e ∧
      holds (run c moves crew).now (journal c id moves crew) e := by
  suffices ∀ past, holds crew.now past d → ∃ e, (run c moves crew).dispatches.get? id = some e ∧
      holds (run c moves crew).now (past ++ journal c id moves crew) e from this [] before
  clear before
  induction moves generalizing crew d with
  | nil => exact fun past before => ⟨d, found, by simpa [journal] using before⟩
  | cons move rest ih =>
    intro past before
    obtain ⟨passes, lets⟩ := lets
    rw [run_cons, journal, ← List.append_assoc]
    cases its : move.isStep id with
    | false =>
      have still := rests _ _ past d (passes d found) before
      exact ih lets (get?_next_of_isStep_eq_false found its) _ (by simpa [ownStep?, its] using still)
    | true =>
      obtain ⟨n, rfl⟩ : ∃ n, move = .step n := by
        cases move <;> simp [Move.isStep] at its ⊢
      obtain rfl : n = id := by simpa [Move.isStep] using its
      by_cases ready : d.ready crew.now = true
      · have made : ownStep? n crew (.step n) = some ⟨crew.now, crew.desk, d⟩ := by
          simp [ownStep?, its, found, ready]
        rw [made]
        rw [next_step_of_ready c found ready] at lets ⊢
        exact ih lets (SortedMap.get?_insert_self ..) _ (own _ _ past d ready before)
      · have made : ownStep? n crew (.step n) = none := by simp [ownStep?, its, found, ready]
        have stays : next c crew (.step n) = crew := by simp [next, found, ready]
        rw [made]
        rw [stays] at lets ⊢
        exact ih lets found _ (by simpa using before)

/-- Where it does not matter which time passes. -/
theorem exists_journal_of_own (holds : List (Lone σ) → Dispatch → Prop)
    (own : ∀ now desk past d, holds past d → holds (past ++ [⟨now, desk, d⟩]) (d.step c now desk).2)
    (moves : List (Move σ)) {crew : Crew σ} {d : Dispatch} (found : crew.dispatches.get? id = some d)
    (before : holds [] d) :
    ∃ e, (run c moves crew).dispatches.get? id = some e ∧ holds (journal c id moves crew) e := by
  have lets (moves : List (Move σ)) : ∀ crew, Lets c id (fun _ _ _ => True) moves crew := by
    induction moves with
    | nil => exact fun _ => trivial
    | cons move rest ih => exact fun crew => ⟨fun _ _ => trivial, ih _⟩
  exact exists_journal (fun _ => holds) (fun now desk past d _ => own now desk past d) (fun _ _ _ _ _ still => still)
    (lets moves crew) found before

end Crew

end Replica

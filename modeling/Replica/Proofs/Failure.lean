import Replica.Proofs.Journal
import Replica.Proofs.Sample
/-! What becomes of a dispatch that something goes wrong with. The error may come from the message itself, from
looking for an entity, from loading the record or from writing it. Whatever the surroundings answer, the first
error is the last thing the dispatch meets: it asks nothing more of them, and either gives the error back, for the
message to be delivered again, or sets the message aside. -/
namespace Replica

/-- The error, if there is one. -/
def errorOf {α : Type} : Except SyncError α → Option SyncError
  | .error error => some error
  | .ok _ => none

/-- The error that the dispatch ends with. -/
def Ending.error? : Ending → Option SyncError
  | failed error => some error
  | _ => none

namespace Lone

variable {σ : Type}

/-- The step asks something of the surroundings: it looks for an entity, loads a record or writes one. -/
def asks (s : Lone σ) : Bool :=
  match s.dispatch.phase with
  | .probing _ => true
  | .loading _ => true
  | .writing .. => true
  | _ => false

/-- The error that the step meets: what is wrong with the message, or what the surroundings answer. -/
def error? (c : Consumer σ) (s : Lone σ) : Option SyncError :=
  let m := s.dispatch.message
  match s.dispatch.phase with
  | .arrived => (c.registry.handlerFor? m).bind fun handler => errorOf (Dispatch.dependencies handler m)
  | .probing w => errorOf (c.backend.probe w.key s.desk.store).1
  | .loading schema =>
    errorOf ((c.backend.load m.key s.desk.store).1.bind fun current => Resolution.resolve m current schema)
  | .writing record _ => errorOf (c.backend.upsert record s.desk.store).1
  | _ => none

end Lone

namespace Dispatch

variable {σ : Type} {c : Consumer σ}

/-! ### One step -/

/-- A step that meets an error leads to the end with that error; any other leaves the dispatch undecided, or about
to end without one. -/
def Phase.Bears (phase : Phase) : Option SyncError → Prop
  | some error => phase = .closing (.failed error)
  | none =>
    match phase with
    | .closing ending => ending.error? = none
    | .shelving .. => False
    | .done _ => False
    | _ => True

theorem bears_await (schema : Schema) (since deadline now : Instant) (keys : List EntityKey) :
    (await schema since deadline now keys).Bears none := by
  cases keys <;> trivial

theorem bears_receive (registry : Registry) (budget : WaitBudget) (now : Instant) (m : Message) :
    (receive registry budget now m).Bears
      ((registry.handlerFor? m).bind fun handler => errorOf (dependencies handler m)) := by
  unfold receive
  cases registry.handlerFor? m with
  | none => rfl
  | some handler =>
    simp only [Option.bind_some]
    cases dependencies handler m with
    | error error => rfl
    | ok waits =>
      cases waits with
      | none => trivial
      | some keys =>
        dsimp only
        cases Instant.after? now (budget.budgetFor m.isForceSync) with
        | none => trivial
        | some deadline => exact bears_await ..

theorem bears_onProbe (backoff : Backoff) (now : Instant) (w : DependencyWait) (answer : Except SyncError Bool) :
    (onProbe backoff now w answer).Bears (errorOf answer) := by
  unfold onProbe
  split
  · rfl
  · exact bears_await ..
  · split
    · rfl
    · trivial

theorem bears_onLoad (schema : Schema) (m : Message) (answer : Except SyncError (Option Record)) :
    (onLoad schema m answer).Bears (errorOf (answer.bind fun current => Resolution.resolve m current schema)) := by
  cases answer with
  | error error => rfl
  | ok current =>
    simp only [onLoad, Except.bind]
    cases Resolution.resolve m current schema with
    | error error => rfl
    | ok resolution => cases resolution <;> trivial

theorem bears_onWrite (outcome : Outcome) (answer : Except SyncError Upsert) :
    (onWrite outcome answer).Bears (errorOf answer) := by
  rcases onWrite_cases outcome answer with ⟨error, rfl, made⟩ | ⟨upsert, rfl, -, made⟩ | ⟨upsert, rfl, -, made⟩ <;>
    rw [made] <;> rfl

/-- What an undecided dispatch meets decides it. -/
theorem bears_step {d : Dispatch} (undecided : d.verdict? = none) (now : Instant) (desk : Desk σ) :
    (d.step c now desk).2.phase.Bears (Lone.error? c ⟨now, desk, d⟩) := by
  unfold verdict? at undecided
  unfold Lone.error? step
  cases phase : d.phase with
  | arrived => exact bears_receive ..
  | probing w => exact bears_onProbe ..
  | pausing until_ w => trivial
  | loading schema => exact bears_onLoad ..
  | writing record outcome => exact bears_onWrite ..
  | beyondClock => simp [phase, Phase.Bears]
  | _ => simp [phase] at undecided

theorem undecided_or_ends {d : Dispatch} {met : Option SyncError} (bears : d.phase.Bears met) (sound : d.phase.Sound) :
    d.verdict? = none ∧ met = none ∨
      ∃ ending : Ending, ending.Sound ∧ met = ending.error? ∧ d.Ends ending [] := by
  unfold Phase.Bears at bears
  unfold Ends verdict?
  cases met with
  | some error =>
    simp only at bears
    rw [bears]
    exact .inr ⟨.failed error, trivial, rfl, rfl, rfl⟩
  | none =>
    cases phase : d.phase with
    | closing ending =>
      rw [phase] at bears sound
      exact .inr ⟨ending, sound, bears.symm, rfl, rfl⟩
    | _ => simp_all

/-- A decided dispatch asks nothing any more, and meets no error. -/
theorem quiet_of_verdict? {d : Dispatch} (decided : d.verdict?.isSome = true) (now : Instant) (desk : Desk σ) :
    Lone.asks ⟨now, desk, d⟩ = false ∧ Lone.error? c ⟨now, desk, d⟩ = none := by
  unfold verdict? at decided
  unfold Lone.asks Lone.error?
  cases phase : d.phase <;> simp_all

/-! ### All steps of a dispatch -/

/-- What a dispatch has done so far: once it met an error it asked nothing more and met no other, and it handed
nothing over before its result was decided. It is undecided still and met no error, or it ends with the error it
met, or with none. -/
structure Carries (c : Consumer σ) (m : Message) (past : List (Lone σ)) (d : Dispatch) : Prop where
  message : d.message = m
  sound : d.phase.Sound
  last : past.Pairwise fun earlier later =>
    (earlier.error? c).isSome = true → later.asks = false ∧ later.error? c = none
  ends : d.verdict? = none ∧ past.filterMap (Lone.error? c) = [] ∧ past.filterMap Lone.letter? = [] ∨
    ∃ ending : Ending, ending.Sound ∧ past.filterMap (Lone.error? c) = ending.error?.toList ∧
      d.Ends ending (past.filterMap Lone.letter?)

theorem carries_arrived (c : Consumer σ) (m : Message) : Carries c m [] { message := m } where
  message := rfl
  sound := trivial
  last := .nil
  ends := .inl ⟨rfl, rfl, rfl⟩

theorem Carries.step {m : Message} {past : List (Lone σ)} {d : Dispatch} (carries : Carries c m past d)
    (now : Instant) (desk : Desk σ) : Carries c m (past ++ [⟨now, desk, d⟩]) (d.step c now desk).2 where
  message := (d.message_step now desk).trans carries.message
  sound := (kept_sound c).own now desk d trivial carries.sound
  last := by
    refine List.pairwise_append.2 ⟨carries.last, List.pairwise_singleton .., fun earlier among later its failed => ?_⟩
    obtain rfl := List.mem_singleton.1 its
    rcases carries.ends with ⟨-, fine, -⟩ | ⟨ending, -, -, ends⟩
    · rw [List.filterMap_eq_nil_iff.1 fine earlier among] at failed
      cases failed
    · exact quiet_of_verdict? (by rw [ends.verdict?]; rfl) now desk
  ends := by
    rw [filterMap_concat, filterMap_concat]
    rcases carries.ends with ⟨undecided, fine, none_⟩ | ⟨ending, sound, met, ends⟩
    · have bears := bears_step (c := c) undecided now desk
      have sound := (kept_sound c).own now desk d trivial carries.sound
      have keeps : Lone.letter? ⟨now, desk, d⟩ = none := by
        unfold verdict? at undecided
        unfold Lone.letter? Phase.letter?
        cases phase : d.phase <;> simp_all
      rw [fine, none_, keeps]
      rcases undecided_or_ends bears sound with ⟨still, met⟩ | ⟨ending, sound, met, ends⟩
      · exact .inl ⟨still, by rw [met]; rfl, rfl⟩
      · exact .inr ⟨ending, sound, by rw [met]; rfl, ends⟩
    · have quiet := (quiet_of_verdict? (c := c) (by rw [ends.verdict?]; rfl) now desk).2
      exact .inr ⟨ending, sound, by rw [quiet]; simpa using met, ends.step c now desk⟩

/-- A dispatch that has ended gave and handed over what its ending stands for, with the error it met. -/
theorem Carries.exists_ending {m : Message} {past : List (Lone σ)} {d : Dispatch} (carries : Carries c m past d)
    {result : DispatchResult} (given : d.result? = some result) :
    ∃ ending : Ending, ending.Sound ∧ past.filterMap (Lone.error? c) = ending.error?.toList ∧
      result = ending.result m ∧ past.filterMap Lone.letter? = (ending.letter? m).toList := by
  rcases carries.ends with ⟨undecided, -, -⟩ | ⟨ending, sound, met, ends⟩
  · simp [verdict?_of_result? given] at undecided
  · exact ⟨ending, sound, met, carries.message ▸ ends.of_result? given⟩

end Dispatch

namespace Ending

variable {m : Message} {ending : Ending}

/-- Only an error that another attempt may mend is given back. -/
theorem result_eq_error_iff {error : SyncError} :
    ending.result m = .error error ↔ ending.error? = some error ∧ error.isRetryable = true := by
  cases ending with
  | plain outcome => simp [result, error?]
  | timedOut missing waited => simp [result, error?]
  | failed met => cases again : met.isRetryable <;> simp [result, error?, again] <;> grind

theorem letter?_eq_none_of_error {error : SyncError} (back : ending.result m = .error error) :
    ending.letter? m = none := by
  obtain ⟨met, again⟩ := result_eq_error_iff.1 back
  cases ending with
  | failed met => simp_all [error?, letter?]
  | _ => cases met

/-- Any other error sets the message aside. -/
theorem set_aside_of_error {error : SyncError} (met : ending.error? = some error)
    (final : error.isRetryable = false) :
    ∃ reason, ending.result m = .ok (.deadLettered reason) ∧ ending.letter? m = some ⟨m, reason, error.text⟩ := by
  cases ending with
  | failed error =>
    obtain rfl := Option.some.inj met
    exact ⟨reasonFor error, by simp [result, final], by simp [letter?, final]⟩
  | _ => cases met

/-- Without an error, what gives up on a message that was asked for sets it aside. -/
theorem letter?_isSome_iff (sound : ending.Sound) (fine : ending.error? = none) :
    (ending.letter? m).isSome = true ↔ ∃ missing, ending.result m = .ok (.escalated missing) := by
  cases ending with
  | plain outcome => cases outcome <;> simp_all [letter?, result, Sound, Outcome.state]
  | timedOut missing waited => cases forced : m.isForceSync <;> simp [letter?, result, forced]
  | failed error => cases fine

end Ending

namespace Crew

variable {σ : Type} {c : Consumer σ} {crew : Crew σ} {id : Nat}

/-- Throughout a run, a dispatch carries at most one error, and nothing comes after that. -/
theorem carries_run (c : Consumer σ) (free : crew.dispatches.get? id = none) (m : Message) (moves : List (Move σ)) :
    ∃ d, (run c (.receive id m :: moves) crew).dispatches.get? id = some d ∧
      Dispatch.Carries c m (journal c id moves (next c crew (.receive id m))) d := by
  exact exists_journal_of_own (Dispatch.Carries c m) (fun now desk past d carries => carries.step now desk) moves
    (get?_receive_of_free c free m) (Dispatch.carries_arrived c m)

/-- Two steps after its first error a dispatch has ended. -/
theorem ends_after_error (free : crew.dispatches.get? id = none) {m : Message} {first second : List (Move σ)}
    (failed : (journal c id first (next c crew (.receive id m))).filterMap (Lone.error? c) ≠ [])
    (enough : 2 ≤ second.countP (·.isStep id)) {d : Dispatch}
    (found : (run c (.receive id m :: (first ++ second)) crew).dispatches.get? id = some d) :
    d.result?.isSome = true := by
  obtain ⟨e, there, carries⟩ := carries_run c free m first
  have decided : e.verdict?.isSome = true := by
    rcases carries.ends with ⟨-, fine, -⟩ | ⟨ending, -, -, ends⟩
    · exact absurd fine failed
    · rw [ends.verdict?]
      rfl
  obtain ⟨later, last, ended⟩ := ends_of_verdict? c there decided enough
  rw [← List.cons_append, run_append] at found
  obtain rfl : later = d := Option.some.inj (last.symm.trans found)
  exact ended

/-- A message is received and its dispatch makes its steps, whatever happens meanwhile and whatever it is answered.
After the first error it asks nothing more and meets no other error, it needs two more steps, and then it has ended.
It gives an error back just if that is the first error and may be mended, and then it hands over no letter. Any
other error sets the message aside, in one letter with the words of the error. Without an error there is a letter
exactly if the dispatch gave up on a message that was asked for. What is handed over is what the step adds to the
letters of the desk, if they are kept. -/
theorem redelivered_or_set_aside (c : Consumer σ) (free : crew.dispatches.get? id = none) (m : Message)
    (moves : List (Move σ)) :
    let received := next c crew (.receive id m)
    let errors (moves : List (Move σ)) := (journal c id moves received).filterMap (Lone.error? c)
    let letters := (journal c id moves received).filterMap Lone.letter?
    ∃ d, (run c (.receive id m :: moves) crew).dispatches.get? id = some d ∧ d.message = m ∧
      ((journal c id moves received).Pairwise fun earlier later =>
        (earlier.error? c).isSome = true → later.asks = false ∧ later.error? c = none) ∧
      (∀ s ∈ journal c id moves received, (s.dispatch.step c s.now s.desk).1.letters =
        s.desk.letters ++ if c.keepsLetters then s.letter?.toList else []) ∧
      (∀ first second, moves = first ++ second → errors first ≠ [] → 2 ≤ second.countP (·.isStep id) →
        d.result?.isSome = true) ∧
      ∀ result, d.result? = some result →
        (∀ error, result = .error error ↔ (errors moves).head? = some error ∧ error.isRetryable = true) ∧
        ((∃ error, result = .error error) → letters = []) ∧
        (∀ error, (errors moves).head? = some error → error.isRetryable = false →
          ∃ reason, result = .ok (.deadLettered reason) ∧ letters = [⟨m, reason, error.text⟩]) ∧
        (errors moves = [] → (letters ≠ [] ↔ ∃ missing, result = .ok (.escalated missing))) := by
  intro received errors letters
  obtain ⟨d, found, carries⟩ := carries_run c free m moves
  refine ⟨d, found, carries.message, carries.last, fun s _ => Dispatch.letters_step c s.now s.desk s.dispatch, ?_, ?_⟩
  · rintro first second rfl failed enough
    exact ends_after_error free failed enough found
  intro result given
  obtain ⟨ending, sound, met, rfl, left⟩ := carries.exists_ending given
  have first : (errors moves).head? = ending.error? := by
    rw [show errors moves = _ from met]
    cases ending.error? <;> rfl
  rw [first, show letters = _ from left]
  refine ⟨fun error => Ending.result_eq_error_iff, ?_, ?_, ?_⟩
  · rintro ⟨error, back⟩
    rw [Ending.letter?_eq_none_of_error back]
    rfl
  · intro error failed final
    obtain ⟨reason, result, letter⟩ := Ending.set_aside_of_error (m := m) failed final
    exact ⟨reason, result, by rw [letter]; rfl⟩
  · intro fine
    have none : ending.error? = none := by
      rw [← first, fine]
      rfl
    rw [← Ending.letter?_isSome_iff sound none]
    cases ending.letter? m <;> simp

section Samples

open Fixtures

/-- A service whose store works for one read only. -/
def onceRead : Consumer FaultyStore :=
  { registry := Registry.ofList [companies, employees], backend := FaultyStore.backend }

/-- An error that cannot be mended. -/
def diskFailed : FaultyStore := { faults := [⟨.load, 1, .storage "disk failed" false⟩] }

/-- An error that may be mended. -/
def diskBusy : FaultyStore := { faults := [⟨.load, 1, .storage "disk busy" true⟩] }

/-- The company of the employee is looked for twice. -/
def lookedTwice : List (Move FaultyStore) :=
  [.step 0, .step 0, .pass (Duration.millis 250), .step 0, .step 0, .step 0, .step 0]

theorem redelivered_or_set_aside_lookedTwice :
    ((opened diskFailed).dispatches.get? 0 = none ∧
      ((run onceRead (.receive 0 hire :: lookedTwice) (opened diskFailed)).dispatches.get? 0).bind
          Dispatch.result? = some (.ok (.deadLettered .permanentFailure)) ∧
      (journal onceRead 0 lookedTwice (next onceRead (opened diskFailed) (.receive 0 hire))).filterMap Lone.letter? =
        [⟨hire, .permanentFailure, "storage error: disk failed"⟩]) ∧
    (opened diskBusy).dispatches.get? 0 = none ∧
      ((run onceRead (.receive 0 hire :: lookedTwice) (opened diskBusy)).dispatches.get? 0).bind
          Dispatch.result? = some (.error (.storage "disk busy" true)) ∧
      (journal onceRead 0 lookedTwice (next onceRead (opened diskBusy) (.receive 0 hire))).filterMap Lone.letter? =
        [] := by
  constructor
  · obtain ⟨d, found, -, -, -, -, settled⟩ := redelivered_or_set_aside onceRead
      (show (opened diskFailed).dispatches.get? 0 = none from rfl) hire lookedTwice
    have ended : ((run onceRead (.receive 0 hire :: lookedTwice) (opened diskFailed)).dispatches.get? 0).bind
        Dispatch.result? = some (.ok (.deadLettered .permanentFailure)) := by decide +kernel
    refine ⟨rfl, ended, ?_⟩
    rw [found] at ended
    obtain ⟨-, -, aside, -⟩ := settled _ ended
    obtain ⟨reason, same, letters⟩ := aside (.storage "disk failed" false) (by decide +kernel) rfl
    obtain rfl := Outcome.deadLettered.inj (Except.ok.inj same)
    exact letters
  · obtain ⟨d, found, -, -, -, -, settled⟩ := redelivered_or_set_aside onceRead
      (show (opened diskBusy).dispatches.get? 0 = none from rfl) hire lookedTwice
    have ended : ((run onceRead (.receive 0 hire :: lookedTwice) (opened diskBusy)).dispatches.get? 0).bind
        Dispatch.result? = some (.error (.storage "disk busy" true)) := by
      -- the error is given back just because it is the first one met and may be mended
      have met : ((journal onceRead 0 lookedTwice (next onceRead (opened diskBusy) (.receive 0 hire))).filterMap
          (Lone.error? onceRead)).head? = some (.storage "disk busy" true) := by decide +kernel
      have finished : d.result?.isSome = true := by
        have some : (((run onceRead (.receive 0 hire :: lookedTwice) (opened diskBusy)).dispatches.get? 0).bind
            Dispatch.result?).isSome = true := by decide +kernel
        rwa [found] at some
      obtain ⟨result, ended⟩ := Option.isSome_iff_exists.1 finished
      obtain ⟨back, -⟩ := settled result ended
      rw [found, Option.bind_some, ended, (back _).2 ⟨met, rfl⟩]
    refine ⟨rfl, ended, ?_⟩
    rw [found] at ended
    obtain ⟨-, given, -⟩ := settled _ ended
    exact given ⟨_, rfl⟩

end Samples

end Crew

end Replica

import Replica.Proofs.Polling
import Replica.Subscriber.Reader
/-! Whether waits get on. Pauses end at whole milliseconds, so as long as every delay is some time a wait in
vain takes a millisecond or more from each look to the next, and it is over after as many looks as it has
milliseconds, and one. A delay of no time ends where it begins: the next look is made at the same moment. The
description of a subscriber may ask for such delays. -/
namespace Replica

/-- What is looked for in vain, however often and however long. -/
def Wait.never (ε : Type) : Nat → Instant → Except ε Bool := fun _ _ => .ok false

/-- A wait with these delays, whatever its length is and however long a look takes, gets on while nothing is
found: it ends, empty-handed, after as many looks as it has milliseconds or begun ones, and one, and from each
look to the next it takes a millisecond or more. It begins at a whole millisecond, as the clock does. The looks
are counted in 32 bits. -/
def Backoff.MakesHeadway (ε : Type) (b : Backoff) : Prop :=
  ∀ (start : Instant) (length takes : Duration) (w : Wait), start.IsTick → Wait.start? start length = some w →
    ∃ (outcome : WaitOutcome) (looks : List Instant),
      (∀ more, w.poll b takes (Wait.never ε)
        (more + (1 + Instant.ceilMillis length / Duration.millis 1)) start = some (.ok outcome, looks)) ∧
      outcome.found = false ∧ outcome.count = .ofNat looks.length ∧
      looks.length ≤ 1 + Instant.ceilMillis length / Duration.millis 1 ∧
      looks.IsChain fun earlier later => earlier + Duration.millis 1 ≤ later

namespace Wait

variable {ε : Type} {b : Backoff} {w : Wait} {now : Instant} {takes : Duration}

/-- A look that ends at the deadline or later is the last one. -/
theorem poll_late (late : w.deadline ≤ now.afterPause takes) (fuel : Nat) :
    w.poll b takes (never ε) (fuel + 1) now =
      some (.ok ⟨false, .ofNat (w.attempt + 1), now.afterPause takes - w.start⟩, [now]) := by
  simp only [poll, never, pause?_eq_none late]

/-- After another look the wait goes on from the end of the pause. -/
theorem poll_early {next : Instant} {w' : Wait} (paused : w.pause? b (now.afterPause takes) = some (next, w'))
    (fuel : Nat) :
    w.poll b takes (never ε) (fuel + 1) now =
      (w'.poll b takes (never ε) fuel next).map fun (result, times) =>
        (result, now :: times) := by
  simp only [poll, never, paused]

/-- After a look that ends before the deadline the next one is made at a whole millisecond too, one or more later. -/
theorem exists_pause_later (rising : ∀ k, 0 < b.delayAfter k) (fits : w.deadline < Instant.clockEnd)
    (tick : now.IsTick) (early : now.afterPause takes < w.deadline) :
    ∃ next, w.pause? b (now.afterPause takes) = some (next, { w with attempt := w.attempt + 1 }) ∧
      next.IsTick ∧ now + Duration.millis 1 ≤ next := by
  obtain ⟨next, paused, later, -, aligned, -⟩ := exists_pause rising early fits
  have apart := (tick.afterPause takes).add_le_of_lt aligned later
  exact ⟨next, paused, aligned, Nat.le_trans (Nat.add_le_add_right (Instant.le_afterPause now takes) _) apart⟩

/-- While the deadline is so many milliseconds away there are that many looks to come, after the first, or fewer. -/
theorem exists_poll_vain (ε : Type) (takes : Duration) (w : Wait) (rising : ∀ k, 0 < b.delayAfter k)
    (fits : w.deadline < Instant.clockEnd) (tick : now.IsTick) {n : Nat}
    (near : w.deadline ≤ now + Duration.millis n) :
    ∃ (outcome : WaitOutcome) (looks : List Instant),
      (∀ more, w.poll b takes (never ε) (more + (n + 1)) now =
        some (.ok outcome, now :: looks)) ∧
      outcome.found = false ∧ outcome.count = .ofNat (w.attempt + (looks.length + 1)) ∧ looks.length ≤ n ∧
      (now :: looks).IsChain fun earlier later => earlier + Duration.millis 1 ≤ later := by
  -- what is left of the wait shrinks by a millisecond with each look
  induction n generalizing w now with
  | zero =>
    have late : w.deadline ≤ now.afterPause takes :=
      Nat.le_trans near (by simpa [Duration.millis] using Instant.le_afterPause now takes)
    exact ⟨_, [], fun more => poll_late late more, rfl, rfl, Nat.le_refl 0, List.isChain_singleton now⟩
  | succ n ih =>
    by_cases late : w.deadline ≤ now.afterPause takes
    · exact ⟨_, [], fun more => poll_late late (more + (n + 1)), rfl, rfl, Nat.zero_le _,
        List.isChain_singleton now⟩
    · obtain ⟨next, paused, aligned, apart⟩ := exists_pause_later rising fits tick (Nat.not_le.1 late)
      have nearer : w.deadline ≤ next + Duration.millis n := by
        unfold Duration.millis at *
        dsimp only [Instant, Duration] at *
        omega
      obtain ⟨outcome, looks, ends, vain, counted, few, chain⟩ :=
        ih { w with attempt := w.attempt + 1 } fits aligned nearer
      refine ⟨outcome, next :: looks, ?_, vain, ?_, Nat.succ_le_succ few, ?_⟩
      · intro more
        rw [← Nat.add_assoc, poll_early paused, ends]
        rfl
      · rw [counted, List.length_cons, Nat.add_right_comm, Nat.add_assoc]
      · exact List.isChain_cons_cons.2 ⟨apart, chain⟩

/-- Without a delay the next look is made at the same moment, if it takes no time. -/
theorem pause?_of_delayAfter_eq_zero (none : b.delayAfter w.attempt = 0) (early : now < w.deadline) :
    w.pause? b now = some (now, { w with attempt := w.attempt + 1 }) := by
  rw [pause?, if_neg (Nat.not_le.2 early), none]
  rfl

/-- Where there is never a delay, a wait for what does not come never ends. -/
theorem poll_eq_none (none : ∀ k, b.delayAfter k = 0) (early : now < w.deadline) (fuel : Nat) :
    w.poll b 0 (never ε) fuel now = .none := by
  induction fuel generalizing w with
  | zero => rfl
  | succ fuel ih =>
    have paused : w.pause? b (now.afterPause 0) = some (now, { w with attempt := w.attempt + 1 }) :=
      pause?_of_delayAfter_eq_zero (none w.attempt) early
    rw [poll_early paused, ih (w := { w with attempt := w.attempt + 1 }) early]
    rfl

end Wait

namespace Backoff

variable {b : Backoff}

/-- Delays of some time are enough. -/
theorem makesHeadway_of_rising (ε : Type) (rising : ∀ k, 0 < b.delayAfter k) : b.MakesHeadway ε := by
  intro start length takes w tick started
  obtain ⟨rfl, fits⟩ := Wait.of_start? started
  let n := Instant.ceilMillis length / Duration.millis 1
  have whole : Duration.millis n = Instant.ceilMillis length := by
    simp [n, Instant.ceilMillis, Duration.millis]
  have near : start + length ≤ start + Duration.millis n := by
    rw [whole]
    exact Nat.add_le_add_left (Instant.le_ceilMillis length) start
  obtain ⟨outcome, looks, ends, vain, counted, few, chain⟩ :=
    Wait.exists_poll_vain ε takes { start, deadline := start + length } rising fits tick near
  refine ⟨outcome, start :: looks, ?_, vain, ?_, ?_, chain⟩
  · intro more
    rw [Nat.add_comm 1]
    exact ends more
  · rw [counted, List.length_cons, Nat.zero_add]
  · rw [List.length_cons, Nat.add_comm 1]
    exact Nat.succ_le_succ few

/-- The first delay is needed: without it, a wait of a millisecond is not over after two looks. -/
theorem MakesHeadway.delayAfter_pos {ε : Type} (gains : b.MakesHeadway ε) : 0 < b.delayAfter 0 := by
  apply Nat.pos_of_ne_zero
  intro none
  let w : Wait := { start := 0, deadline := Duration.millis 1 }
  obtain ⟨outcome, looks, ends, -⟩ := gains 0 (Duration.millis 1) 0 w rfl (by decide)
  have paused : w.pause? b (Instant.afterPause 0 0) = some (0, { w with attempt := 1 }) :=
    Wait.pause?_of_delayAfter_eq_zero none (by decide)
  -- whatever the second delay is, a third look is to come
  have twice := ends 0
  have fuel : 0 + (1 + Instant.ceilMillis (Duration.millis 1) / Duration.millis 1) = 0 + 1 + 1 := rfl
  rw [fuel, Wait.poll_early paused] at twice
  obtain ⟨next, paused⟩ : ∃ next, Wait.pause? b { w with attempt := 1 } (Instant.afterPause 0 0) = some next :=
    ⟨_, if_neg (by decide)⟩
  rw [Wait.poll_early paused] at twice
  cases twice

end Backoff

theorem Duration.millis_eq_zero_iff {n : Nat} : millis n = 0 ↔ n = 0 := by
  unfold millis
  dsimp only [Duration]
  omega

namespace Subscriber.Config

variable {config : Config}

theorem grows_backoff (config : Config) :
    config.budget.backoff.multiplier.AtLeast Binary64.unitsPerOne :=
  Binary64.atLeast_two

theorem initial_backoff_eq_zero_iff : config.budget.backoff.initial = 0 ↔ config.wait.initialBackoff = some 0 := by
  change (config.wait.initialBackoff.map Duration.millis).getD Backoff.standard.initial = 0 ↔ _
  cases config.wait.initialBackoff with
  | none => decide
  | some n => simp [Duration.millis_eq_zero_iff]

theorem max_backoff_eq_zero_iff : config.budget.backoff.max = 0 ↔ config.wait.maxBackoff = some 0 := by
  change (config.wait.maxBackoff.map Duration.millis).getD Backoff.standard.max = 0 ↔ _
  cases config.wait.maxBackoff with
  | none => decide
  | some n => simp [Duration.millis_eq_zero_iff]

/-- Waits with the delays of a description get on exactly if the description asks for some first delay and for some
greatest delay, or leaves them as they are. If the greatest delay it asks for is no time, a wait for what does not come
stays at the moment at which it began. -/
theorem makesHeadway_iff (ε : Type) (config : Config) :
    (config.budget.backoff.MakesHeadway ε ↔
      config.wait.initialBackoff ≠ some 0 ∧ config.wait.maxBackoff ≠ some 0) ∧
    (config.wait.maxBackoff = some 0 →
      ∀ (start : Instant) (length : Duration) (w : Wait), 0 < length → Wait.start? start length = some w →
        ∀ fuel, w.poll config.budget.backoff 0 (Wait.never ε) fuel start = none) := by
  constructor
  · constructor
    · intro gains
      have some := Nat.ne_of_gt gains.delayAfter_pos
      constructor
      · intro zero
        exact some (Backoff.delayAfter_eq_zero_of_initial (initial_backoff_eq_zero_iff.2 zero))
      · intro zero
        exact some (Backoff.delayAfter_eq_zero_of_max (max_backoff_eq_zero_iff.2 zero) 0)
    · rintro ⟨first, most⟩
      apply Backoff.makesHeadway_of_rising
      apply Backoff.delayAfter_pos _ _ config.grows_backoff
      · exact Nat.pos_of_ne_zero (initial_backoff_eq_zero_iff.not.2 first)
      · exact Nat.pos_of_ne_zero (max_backoff_eq_zero_iff.not.2 most)
  · intro zero start length w some started fuel
    obtain ⟨rfl, -⟩ := Wait.of_start? started
    exact Wait.poll_eq_none (Backoff.delayAfter_eq_zero_of_max (max_backoff_eq_zero_iff.2 zero))
      (Nat.lt_add_of_pos_right some) fuel

section Samples

/-- Looks again without a delay at first. -/
def restless : Config := { handlers := [], wait := { initialBackoff := some 0 } }

/-- Never delays a look. -/
def sleepless : Config := { handlers := [], wait := { maxBackoff := some 0 } }

theorem makesHeadway_iff_sleepless :
    ¬ sleepless.budget.backoff.MakesHeadway Empty ∧
      ∀ fuel, Wait.poll sleepless.budget.backoff 0 (Wait.never Empty) fuel
        { start := 0, deadline := Duration.millis 1 } 0 = none := by
  obtain ⟨gains, ends⟩ := makesHeadway_iff Empty sleepless
  constructor
  · intro headway
    exact (gains.1 headway).2 rfl
  · exact ends rfl 0 (Duration.millis 1) _ (by decide) rfl

/-- A description that is accepted, with whose delays waits do not get on. -/
theorem not_makesHeadway_restless :
    ofJson "\x7b\"handlers\":[],\"wait\":\x7b\"initialBackoffMs\":0\x7d\x7d" = .ok restless ∧
      ¬ restless.budget.backoff.MakesHeadway Empty := by
  constructor
  · decide +kernel
  · intro gains
    exact Nat.ne_of_gt gains.delayAfter_pos (Backoff.delayAfter_eq_zero_of_initial rfl)

end Samples

end Subscriber.Config

end Replica

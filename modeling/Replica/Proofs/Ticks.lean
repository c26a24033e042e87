import Replica.Wait
import Mathlib.Order.MinMax
/-! The moments of the clock. Pauses end at whole milliseconds, so a clock that starts at one and goes on to
the ends of pauses only ever stands at one. A pause is rounded up, and one that is cut off at a deadline ends
with the millisecond in which the deadline is. -/
namespace Replica

namespace Instant

variable {s t : Instant} {d : Duration}

theorem le_ceilMillis (t : Instant) : t ≤ ceilMillis t := by
  unfold ceilMillis
  dsimp only [Instant]
  omega

theorem ceilMillis_mono (le : s ≤ t) : ceilMillis s ≤ ceilMillis t := by
  unfold ceilMillis
  dsimp only [Instant] at *
  omega

/-- A whole millisecond: a moment at which pauses end. -/
def IsTick (t : Instant) : Prop := ceilMillis t = t

instance (t : Instant) : Decidable t.IsTick := inferInstanceAs (Decidable (_ = _))

theorem isTick_ceilMillis (t : Instant) : (ceilMillis t).IsTick := by
  unfold IsTick ceilMillis
  dsimp only [Instant]
  omega

theorem isTick_millis (n : Nat) : IsTick (Duration.millis n) := by
  unfold IsTick ceilMillis Duration.millis
  dsimp only [Instant]
  omega

theorem ceilMillis_le (tick : t.IsTick) (le : s ≤ t) : ceilMillis s ≤ t :=
  Nat.le_trans (ceilMillis_mono le) (Nat.le_of_eq tick)

/-- From a whole millisecond on, a length is rounded up by itself. -/
theorem IsTick.ceilMillis_add (tick : t.IsTick) (d : Duration) : ceilMillis (t + d) = t + ceilMillis d := by
  obtain ⟨k, rfl⟩ : ∃ k, t = k * 1000000 := ⟨_, tick.symm⟩
  have regroup : k * 1000000 + d + 999999 = d + 999999 + k * 1000000 := by
    rw [Nat.add_assoc, Nat.add_comm]
  unfold ceilMillis
  rw [regroup, Nat.add_mul_div_right _ _ (by decide : 0 < 1000000), Nat.add_mul, Nat.add_comm]

/-- Between two whole milliseconds there is a millisecond at least. -/
theorem IsTick.add_le_of_lt (early : s.IsTick) (late : t.IsTick) (less : s < t) : s + Duration.millis 1 ≤ t := by
  unfold IsTick ceilMillis at early late
  unfold Duration.millis
  dsimp only [Instant, Duration] at *
  omega

theorem of_after? {u : Instant} (due : after? t d = some u) : u = t + d ∧ t + d < clockEnd := by
  unfold after? at due
  split at due <;> cases due
  exact ⟨rfl, ‹_›⟩

/-- A pause that ends within the clock ends at a whole millisecond. -/
theorem afterPause_eq (some : 0 < d) (fits : t + d < clockEnd) : afterPause t d = ceilMillis (t + d) := by
  rw [afterPause, if_neg (Nat.ne_of_gt some), after?, if_pos fits]
  rfl

/-- Where the clock stands at a whole millisecond, or there is some pause, the end of the pause is rounded up. -/
theorem afterPause_eq_ceilMillis (rounded : t.IsTick ∨ 0 < d) (fits : t + d < clockEnd) :
    afterPause t d = ceilMillis (t + d) := by
  rcases Nat.eq_zero_or_pos d with rfl | some
  · rcases rounded with tick | some
    · rw [afterPause, if_pos rfl, Nat.add_zero, tick]
    · exact absurd some (Nat.lt_irrefl 0)
  · exact afterPause_eq some fits

/-- Pauses end after they begin, even where the clock does not reach their end. -/
theorem le_afterPause (t : Instant) (d : Duration) : t ≤ afterPause t d := by
  unfold afterPause after?
  split
  · exact Nat.le_refl t
  split
  · exact Nat.le_trans (Nat.le_add_right ..) (le_ceilMillis (t + d))
  · exact Nat.le_trans (Nat.le_add_right ..) (le_ceilMillis (t + longestPause))

theorem IsTick.afterPause (tick : t.IsTick) (d : Duration) : (t.afterPause d).IsTick := by
  unfold Instant.afterPause
  split
  · exact tick
  · exact isTick_ceilMillis _

theorem add_le_afterPause (fits : t + d < clockEnd) : t + d ≤ afterPause t d := by
  rcases Nat.eq_zero_or_pos d with rfl | some
  · exact Nat.le_of_eq (if_pos rfl).symm
  · rw [afterPause_eq some fits]
    exact le_ceilMillis _

end Instant

namespace Wait

variable {b : Backoff} {w : Wait} {now : Instant}

theorem of_start? {length : Duration} (started : start? now length = some w) :
    w = { start := now, deadline := now + length } ∧ now + length < Instant.clockEnd := by
  obtain ⟨deadline, due, rfl⟩ := Option.map_eq_some_iff.1 started
  obtain ⟨rfl, fits⟩ := Instant.of_after? due
  exact ⟨rfl, fits⟩

/-- After a look in vain at the deadline, or later, there is no pause. -/
theorem pause?_eq_none (late : w.deadline ≤ now) : w.pause? b now = none := by
  rw [pause?, if_pos late]

/-- After a look in vain before the deadline there is a pause. It ends with a whole millisecond, not beyond the one
in which the deadline is. -/
theorem pause?_eq_some (rising : ∀ k, 0 < b.delayAfter k) (early : now < w.deadline)
    (fits : w.deadline < Instant.clockEnd) :
    w.pause? b now = some
      (min (Instant.ceilMillis (now + b.delayAfter w.attempt)) (Instant.ceilMillis w.deadline),
        { w with attempt := w.attempt + 1 }) := by
  have some := rising w.attempt
  let delay : Duration := min (b.delayAfter w.attempt) (w.deadline - now)
  have end_ : now + delay = min (now + b.delayAfter w.attempt) w.deadline := by
    dsimp only [Instant, Duration, delay] at *
    omega
  have least : 0 < delay := by
    dsimp only [Instant, Duration, delay] at *
    omega
  have most : now + delay < Instant.clockEnd := by
    rw [end_]
    exact Nat.lt_of_le_of_lt (Nat.min_le_right ..) fits
  have rounded : Monotone Instant.ceilMillis := fun _ _ => Instant.ceilMillis_mono
  rw [pause?, if_neg (Nat.not_le.2 early), ← rounded.map_min, ← end_, ← Instant.afterPause_eq least most]

/-- The pause ends after the look, at a whole millisecond. -/
theorem exists_pause (rising : ∀ k, 0 < b.delayAfter k) (early : now < w.deadline)
    (fits : w.deadline < Instant.clockEnd) :
    ∃ until_, w.pause? b now = some (until_, { w with attempt := w.attempt + 1 }) ∧
      now < until_ ∧ until_ ≤ Instant.ceilMillis w.deadline ∧ until_.IsTick ∧
      until_ ≤ Instant.ceilMillis (now + b.delayAfter w.attempt) := by
  refine ⟨_, pause?_eq_some rising early fits, Nat.lt_min.2 ⟨?_, ?_⟩, Nat.min_le_right .., ?_, Nat.min_le_left ..⟩
  · exact Nat.lt_of_lt_of_le (Nat.lt_add_of_pos_right (rising _)) (Instant.le_ceilMillis _)
  · exact Nat.lt_of_lt_of_le early (Instant.le_ceilMillis _)
  · rcases min_choice (Instant.ceilMillis (now + b.delayAfter w.attempt)) (Instant.ceilMillis w.deadline) with
      same | same <;> rw [same] <;> exact Instant.isTick_ceilMillis _

end Wait

end Replica

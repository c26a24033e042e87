import Replica.Proofs.Delays
import Replica.Proofs.Ticks
import Mathlib.Algebra.BigOperators.Group.Finset.Basic
import Mathlib.Data.Nat.Find
/-! Waits for what stays true once it is. While nothing is found the looks are made at moments that the delays
alone decide, and the last of them is the end of the wait. So what is true by then is found, at the first of
these moments at which it is true, and what is not costs the whole time. The looks are counted in 32 bits, so a wait
of more looks than that reports a lesser number. -/
namespace Replica

/-- The number of looks is reported as it is exactly as long as 32 bits hold it. -/
theorem WaitOutcome.probes_eq_iff {o : WaitOutcome} {n : Nat} (counted : o.count = .ofNat n) :
    o.probes = n ↔ n < 2 ^ 32 := by
  rw [probes, counted, UInt32.toNat_ofNat']
  exact Nat.mod_eq_iff_lt (by decide)

/-- A fixed delay of a millisecond takes a millisecond. -/
theorem Backoff.ceilMillis_delayAfter_fixed (k : Nat) :
    Instant.ceilMillis ((fixed (Duration.millis 1)).delayAfter k) = Duration.millis 1 := by
  have some : 0 < (fixed (Duration.millis 1)).delayAfter k := delayAfter_fixed_pos (by decide) k
  have most : (fixed (Duration.millis 1)).delayAfter k ≤ Duration.millis 1 :=
    delayAfter_le (by decide) (by decide) (grows_fixed _) (by decide +kernel) k
  generalize (fixed (Duration.millis 1)).delayAfter k = delay at some most
  unfold Instant.ceilMillis Duration.millis at *
  dsimp only [Instant, Duration] at *
  omega

namespace Wait

variable {b : Backoff} {start end_ deadline : Instant} {p : Instant → Bool}

/-- The moments of the looks of a wait in vain, the first one counted zero. Each pause is rounded up, and none goes
on beyond the end of the wait. -/
def lookAt (b : Backoff) (start end_ : Instant) : Nat → Instant
  | 0 => start
  | n + 1 => min (Instant.ceilMillis (lookAt b start end_ n + b.delayAfter n)) end_

theorem lookAt_le (le : start ≤ end_) (n : Nat) : lookAt b start end_ n ≤ end_ := by
  cases n with
  | zero => exact le
  | succ n => exact Nat.min_le_right ..

theorem lookAt_lt_succ (rising : ∀ k, 0 < b.delayAfter k) {n : Nat} (early : lookAt b start end_ n < end_) :
    lookAt b start end_ n < lookAt b start end_ (n + 1) :=
  Nat.lt_min.2 ⟨Nat.lt_of_lt_of_le (Nat.lt_add_of_pos_right (rising n)) (Instant.le_ceilMillis _), early⟩

theorem le_lookAt (le : start ≤ end_) (n : Nat) : start ≤ lookAt b start end_ n := by
  induction n with
  | zero => exact Nat.le_refl _
  | succ n ih =>
    exact Nat.le_min.2 ⟨Nat.le_trans ih (Nat.le_trans (Nat.le_add_right ..) (Instant.le_ceilMillis _)), le⟩

/-- The looks come to every moment up to the end. -/
theorem exists_le_lookAt (rising : ∀ k, 0 < b.delayAfter k) (within : deadline ≤ end_) :
    ∃ n, deadline ≤ lookAt b start end_ n := by
  by_contra never
  have early (n : Nat) : lookAt b start end_ n < deadline := Nat.not_le.1 fun late => never ⟨n, late⟩
  have climbs (n : Nat) : n ≤ lookAt b start end_ n := by
    induction n with
    | zero => exact Nat.zero_le _
    | succ n ih => exact Nat.lt_of_le_of_lt ih (lookAt_lt_succ rising (Nat.lt_of_lt_of_le (early n) within))
  exact Nat.not_lt.2 (climbs deadline) (early deadline)

theorem isTick_lookAt (first : start.IsTick) (last : end_.IsTick) (n : Nat) : (lookAt b start end_ n).IsTick := by
  cases n with
  | zero => exact first
  | succ n =>
    rw [lookAt]
    rcases min_choice (Instant.ceilMillis (lookAt b start end_ n + b.delayAfter n)) end_ with same | same
    · rw [same]
      exact Instant.isTick_ceilMillis _
    · rwa [same]

/-- From a whole millisecond on, the looks are made after the delays so far, each rounded up, and at the end. -/
theorem lookAt_eq_sum (first : start.IsTick) (last : end_.IsTick) (le : start ≤ end_) (n : Nat) :
    lookAt b start end_ n =
      min (start + ∑ k ∈ Finset.range n, Instant.ceilMillis (b.delayAfter k)) end_ := by
  induction n with
  | zero => exact (Nat.min_eq_left le).symm
  | succ n ih =>
    rw [lookAt, (isTick_lookAt first last n).ceilMillis_add, ih, Finset.sum_range_succ]
    dsimp only [Instant, Duration] at *
    omega

/-- Looks before the end are a millisecond apart, and more. -/
theorem add_millis_le_lookAt (rising : ∀ k, 0 < b.delayAfter k) (first : start.IsTick) (last : end_.IsTick) {n : Nat}
    (early : ∀ k < n, lookAt b start end_ k < end_) : start + Duration.millis n ≤ lookAt b start end_ n := by
  induction n with
  | zero => simp [Duration.millis, lookAt]
  | succ n ih =>
    have before := ih fun k less => early k (Nat.lt_succ_of_lt less)
    have next := (isTick_lookAt first last n).add_le_of_lt (isTick_lookAt first last (n + 1))
      (lookAt_lt_succ rising (early n (Nat.lt_succ_self n)))
    have longer : Duration.millis (n + 1) = Duration.millis n + Duration.millis 1 := Nat.add_mul n 1 1000000
    rw [longer, ← Nat.add_assoc]
    exact Nat.le_trans (Nat.add_le_add_right before _) next

/-- A wait from a whole millisecond on makes at most one look more than it has milliseconds. -/
theorem millis_le_ceilMillis (rising : ∀ k, 0 < b.delayAfter k) (first : start.IsTick) {length : Duration}
    (rounded : end_ = Instant.ceilMillis (start + length)) {n : Nat}
    (early : ∀ k < n, lookAt b start end_ k < end_) : Duration.millis n ≤ Instant.ceilMillis length := by
  have last : end_.IsTick := rounded ▸ Instant.isTick_ceilMillis _
  have le : start ≤ end_ := rounded ▸ Nat.le_trans (Nat.le_add_right ..) (Instant.le_ceilMillis _)
  have most := Nat.le_trans (add_millis_le_lookAt rising first last early) (lookAt_le le n)
  rw [rounded, first.ceilMillis_add] at most
  exact Nat.le_of_add_le_add_left most

/-- A look at the deadline, or after it, is at the end of the wait. -/
theorem lookAt_eq_end (rounded : Instant.ceilMillis deadline = end_) (some : start < deadline) {n : Nat}
    (late : deadline ≤ lookAt b start end_ n) : lookAt b start end_ n = end_ := by
  cases n with
  | zero => exact absurd late (Nat.not_le.2 some)
  | succ n =>
    rw [lookAt] at late ⊢
    have most : Instant.ceilMillis deadline ≤ Instant.ceilMillis (lookAt b start end_ n + b.delayAfter n) :=
      Instant.ceilMillis_le (Instant.isTick_ceilMillis _) (Nat.le_trans late (Nat.min_le_left ..))
    rw [rounded] at most
    exact Nat.min_eq_right most

/-- The same of a wait of any length, even of none. -/
theorem lookAt_eq_afterPause {length : Duration} (within : start + length < Instant.clockEnd) {n : Nat}
    (late : start + length ≤ lookAt b start (start.afterPause length) n) :
    lookAt b start (start.afterPause length) n = start.afterPause length := by
  have le := Instant.le_afterPause start length
  rcases Nat.eq_zero_or_pos length with none | some
  · have stands : start.afterPause length = start := if_pos none
    exact Nat.le_antisymm (lookAt_le le n) (Nat.le_trans (Nat.le_of_eq stands) (le_lookAt le n))
  · exact lookAt_eq_end (Instant.afterPause_eq some within).symm (Nat.lt_add_of_pos_right some) late

/-- A wait whose looks are in vain up to one that is the last. -/
theorem poll_lookAt (ε : Type) (rising : ∀ k, 0 < b.delayAfter k) (fits : deadline < Instant.clockEnd)
    (le : start ≤ end_) (rounded : start < deadline → Instant.ceilMillis deadline = end_) {n : Nat}
    (vain : ∀ k < n, p (lookAt b start end_ k) = false ∧ lookAt b start end_ k < deadline)
    (last : p (lookAt b start end_ n) = true ∨ deadline ≤ lookAt b start end_ n) (more : Nat) {left k : Nat}
    (sum : k + left = n) :
    poll b 0 (fun _ t => (.ok (p t) : Except ε Bool)) (more + (left + 1)) { start, deadline, attempt := k }
        (lookAt b start end_ k) =
      some (.ok ⟨p (lookAt b start end_ n), .ofNat (n + 1), lookAt b start end_ n - start⟩,
        (List.range' k (left + 1)).map (lookAt b start end_)) := by
  have instantly (t : Instant) : t.afterPause 0 = t := if_pos rfl
  induction left generalizing k with
  | zero =>
    obtain rfl : k = n := sum
    simp only [poll, instantly]
    cases found : p (lookAt b start end_ k) with
    | true => rfl
    | false =>
      have late := last.resolve_left (by simp [found])
      simp [pause?_eq_none (w := { start, deadline, attempt := k }) late]
  | succ left ih =>
    obtain ⟨missed, early⟩ := vain k (by omega)
    have some := Nat.lt_of_le_of_lt (le_lookAt (b := b) le k) early
    have paused := pause?_eq_some (w := { start, deadline, attempt := k }) rising early fits
    simp only [rounded some] at paused
    rw [← Nat.add_assoc, poll]
    simp only [instantly, missed, paused]
    have rest := ih (k := k + 1) (by omega)
    rw [lookAt] at rest
    rw [rest]
    rfl

/-- The first look that finds something, or is made at the deadline or later, is the last one. -/
theorem exists_lastLook (rising : ∀ k, 0 < b.delayAfter k) (start : Instant) (within : deadline ≤ end_)
    (p : Instant → Bool) :
    ∃ n, (p (lookAt b start end_ n) = true ∨ deadline ≤ lookAt b start end_ n) ∧
      ∀ k < n, p (lookAt b start end_ k) = false ∧ lookAt b start end_ k < deadline := by
  have stops : ∃ n, p (lookAt b start end_ n) = true ∨ deadline ≤ lookAt b start end_ n :=
    (exists_le_lookAt rising within).imp fun _ => .inr
  exact ⟨Nat.find stops, Nat.find_spec stops, fun k before => by simpa [not_or] using Nat.find_min stops before⟩

/-- What became true after a look in vain is seen a delay later at the latest. -/
theorem lookAt_succ_le (lasting : ∀ s t, s ≤ t → p s = true → p t = true) {k : Nat}
    (missed : p (lookAt b start end_ k) = false) {since : Instant} (became : p since = true) :
    lookAt b start end_ (k + 1) ≤ Instant.ceilMillis (since + b.delayAfter k) ∧
      (start.IsTick → end_.IsTick →
        lookAt b start end_ (k + 1) < since + Instant.ceilMillis (b.delayAfter k)) := by
  have later : lookAt b start end_ k < since := by
    refine Nat.not_le.1 fun early => ?_
    rw [lasting _ _ early became] at missed
    cases missed
  have most : lookAt b start end_ (k + 1) ≤ Instant.ceilMillis (lookAt b start end_ k + b.delayAfter k) :=
    Nat.min_le_left ..
  refine ⟨Nat.le_trans most (Instant.ceilMillis_mono (Nat.add_le_add_right (Nat.le_of_lt later) _)), ?_⟩
  intro first last
  rw [(isTick_lookAt first last k).ceilMillis_add] at most
  exact Nat.lt_of_le_of_lt most (Nat.add_lt_add_right later _)

/-- Take a backoff that always pauses, something that is looked for without losing time and stays true once it is,
and a wait from some moment on that the clock reaches the end of. Its end is the deadline rounded up to a whole
millisecond, unless there is no time to wait at all between two of them.

There is a last look. Up to it the looks are made at the moments that the delays decide, each sees nothing but
perhaps the last one, and the wait ends with it. It finds something exactly if that is true at the end of the wait, and
otherwise it lasts until then. Whenever the thing became true before, it is found after one more delay, rounded up, at
the latest.

The looks are counted in 32 bits, and their number is reported exactly if these hold it. From a whole millisecond on
they do if the wait is for fewer milliseconds than the greatest count. -/
theorem poll_of_lasting (ε : Type) (rising : ∀ k, 0 < b.delayAfter k)
    (lasting : ∀ s t, s ≤ t → p s = true → p t = true) {length : Duration} {w : Wait}
    (started : start? start length = some w) :
    let end_ := Instant.afterPause start length
    let looks := lookAt b start end_
    (start.IsTick ∨ 0 < length → end_ = Instant.ceilMillis (start + length)) ∧ (length = 0 → end_ = start) ∧
      (start.IsTick → ∀ n, looks n =
        min (start + ∑ k ∈ Finset.range n, Instant.ceilMillis (b.delayAfter k)) end_) ∧
      ∃ n outcome,
        (∀ more, w.poll b 0 (fun _ t => (.ok (p t) : Except ε Bool)) (more + (n + 1)) start =
          some (.ok outcome, (List.range (n + 1)).map looks)) ∧
        outcome.found = p end_ ∧ looks n = start + outcome.elapsed ∧ outcome.count = .ofNat (n + 1) ∧
        (outcome.probes = n + 1 ↔ n + 1 < 2 ^ 32) ∧
        (start.IsTick → length ≤ Duration.millis (2 ^ 32 - 2) → outcome.probes = n + 1) ∧
        (∀ k < n, p (looks k) = false) ∧ p (looks n) = p end_ ∧
        (p end_ = false → end_ = start + outcome.elapsed) ∧
        ∀ since k, p since = true → n = k + 1 → looks n ≤ Instant.ceilMillis (since + b.delayAfter k) ∧
          (start.IsTick → looks n < since + Instant.ceilMillis (b.delayAfter k)) := by
  intro end_ looks
  obtain ⟨rfl, within⟩ := of_start? started
  have rounded (usual : start.IsTick ∨ 0 < length) : end_ = Instant.ceilMillis (start + length) :=
    Instant.afterPause_eq_ceilMillis usual within
  have tick (first : start.IsTick) : end_.IsTick := by
    rw [rounded (.inl first)]
    exact Instant.isTick_ceilMillis _
  have due : start + length ≤ end_ := Instant.add_le_afterPause within
  have le : start ≤ end_ := Instant.le_afterPause start length
  obtain ⟨n, last, vain⟩ := exists_lastLook rising start due p
  have final (missed : p (looks n) = false) : looks n = end_ :=
    lookAt_eq_afterPause within (last.resolve_left (by simp [looks, missed]))
  have same : p (looks n) = p end_ := by
    cases found : p (looks n) with
    | true => exact (lasting _ _ (lookAt_le le n) found).symm
    | false => rw [← final found, found]
  have sum : looks n = start + (looks n - start) := (Nat.add_sub_of_le (le_lookAt le n)).symm
  have few (first : start.IsTick) (short : length ≤ Duration.millis (2 ^ 32 - 2)) : n + 1 < 2 ^ 32 := by
    have most := millis_le_ceilMillis rising first (rounded (.inl first)) fun k before =>
      Nat.lt_of_lt_of_le (vain k before).2 due
    have least : Instant.ceilMillis length ≤ Duration.millis (2 ^ 32 - 2) := Instant.ceilMillis_le (by decide) short
    unfold Duration.millis at *
    dsimp only [Instant, Duration] at *
    omega
  refine ⟨rounded, fun none => if_pos none, fun first n => lookAt_eq_sum first (tick first) le n, n,
    ⟨p end_, .ofNat (n + 1), looks n - start⟩, fun more => ?_, rfl, sum, rfl, WaitOutcome.probes_eq_iff rfl,
    fun first short => (WaitOutcome.probes_eq_iff rfl).2 (few first short), fun k before => (vain k before).1, same,
    fun missed => ?_, fun since k became next => ?_⟩
  · rw [← same, List.range_eq_range']
    exact poll_lookAt ε rising within le (fun some => (rounded (.inr (Nat.pos_of_lt_add_right some))).symm) vain last
      more (Nat.zero_add n)
  · rw [← sum, final (same.trans missed)]
  · obtain ⟨most, less⟩ := lookAt_succ_le lasting (vain k (by omega)).1 became
    rw [next]
    exact ⟨most, fun first => less first (tick first)⟩

/-- With a delay of a millisecond there is a look at each of the milliseconds. -/
theorem lookAt_fixed_milli {m n : Nat} (le : n ≤ m) :
    lookAt (.fixed (Duration.millis 1)) 0 (Duration.millis m) n = Duration.millis n := by
  have first : Instant.IsTick 0 := rfl
  rw [lookAt_eq_sum first (Instant.isTick_millis m) (Nat.zero_le _),
    Finset.sum_congr rfl fun k _ => Backoff.ceilMillis_delayAfter_fixed k]
  simp [Duration.millis, le]

/-- So a wait of so many in vain takes one look more. -/
theorem poll_fixed_milli (ε : Type) {m : Nat} (fits : Duration.millis m < Instant.clockEnd) :
    poll (.fixed (Duration.millis 1)) 0 (fun _ _ => (.ok false : Except ε Bool)) (m + 1)
        { start := 0, deadline := Duration.millis m } 0 =
      some (.ok ⟨false, .ofNat (m + 1), Duration.millis m⟩, (List.range (m + 1)).map Duration.millis) := by
  have rising := Backoff.delayAfter_fixed_pos (d := Duration.millis 1) (by decide)
  have last := lookAt_fixed_milli (Nat.le_refl m)
  have vain (k : Nat) (before : k < m) :
      false = false ∧ lookAt (.fixed (Duration.millis 1)) 0 (Duration.millis m) k < Duration.millis m := by
    rw [lookAt_fixed_milli (Nat.le_of_lt before)]
    exact ⟨rfl, Nat.mul_lt_mul_of_pos_right before (by decide)⟩
  have ends := poll_lookAt (p := fun _ => false) ε rising fits (Nat.zero_le _) (fun _ => Instant.isTick_millis m) vain
    (.inr (Nat.le_of_eq last.symm)) 0 (Nat.zero_add m)
  rw [last, ← List.range_eq_range', Nat.zero_add] at ends
  rw [List.map_congr_left fun n among => (lookAt_fixed_milli (Nat.lt_succ_iff.1 (List.mem_range.1 among))).symm]
  exact ends

section Samples

open Duration

/-- With the usual delays, what becomes true after 800 ms is found by the fourth look, after 1750 ms. -/
theorem poll_of_lasting_fourthLook :
    let p (t : Instant) := decide (millis 800 ≤ t)
    (∀ k, 0 < Backoff.standard.delayAfter k) ∧ (∀ s t, s ≤ t → p s = true → p t = true) ∧
      start? 0 (seconds 300) = some { start := 0, deadline := seconds 300 } ∧
      poll .standard 0 (fun _ t => (.ok (p t) : Except Empty Bool)) 4 { start := 0, deadline := seconds 300 } 0 =
        some (.ok ⟨true, 4, millis 1750⟩, [0, millis 250, millis 750, millis 1750]) := by
  intro p
  have rising := Backoff.delayAfter_pos (b := .standard) (by decide) (by decide) Binary64.atLeast_two
  have lasting (s t : Instant) (le : s ≤ t) (became : p s = true) : p t = true :=
    decide_eq_true (Nat.le_trans (of_decide_eq_true became) le)
  have started : start? 0 (seconds 300) = some { start := 0, deadline := seconds 300 } := by decide
  refine ⟨rising, lasting, started, ?_⟩
  obtain ⟨-, -, -, n, ⟨found, count, elapsed⟩, polled, finds, sum, counts, -, -, vain, same, -⟩ :=
    poll_of_lasting Empty rising lasting started
  have others : ∀ k < 3, p (lookAt .standard 0 (Instant.afterPause 0 (seconds 300)) k) = false := by decide +kernel
  generalize looked : lookAt .standard 0 (Instant.afterPause 0 (seconds 300)) = looks at *
  have times : (List.range 4).map looks = [0, millis 250, millis 750, millis 1750] := by
    rw [← looked]
    decide +kernel
  simp only [List.range_succ, List.range_zero, List.nil_append, List.cons_append, List.map_cons, List.map_nil,
    List.cons.injEq, and_true] at times
  obtain ⟨first, second, third, fourth⟩ := times
  have ends : p (Instant.afterPause 0 (seconds 300)) = true := by decide
  rw [ends] at same
  obtain rfl : n = 3 := by
    rcases Nat.lt_trichotomy n 3 with early | three | late
    · rw [others n early] at same
      cases same
    · exact three
    · have found : p (looks 3) = true := by rw [fourth]; decide
      rw [vain 3 late] at found
      cases found
  have polled := polled 0
  obtain rfl : count = 4 := counts
  obtain rfl : found = true := finds.trans ends
  obtain rfl : millis 1750 = elapsed := fourth.symm.trans (sum.trans (Nat.zero_add elapsed))
  rw [polled]
  simp only [List.range_succ, List.range_zero, List.nil_append, List.cons_append, List.map_cons, List.map_nil, first,
    second, third, fourth]

/-- A wait in vain of as many milliseconds as 32 bits count, with a look at each of them and one at its beginning. As
many looks as that are reported as none. -/
theorem not_probes_eq_length_patient :
    (∀ k, 0 < (Backoff.fixed (millis 1)).delayAfter k) ∧
      start? 0 (millis (2 ^ 32 - 1)) = some { start := 0, deadline := millis (2 ^ 32 - 1) } ∧
      ∃ (outcome : WaitOutcome) (looks : List Instant),
        poll (.fixed (millis 1)) 0 (fun _ _ => (.ok false : Except Empty Bool)) (2 ^ 32)
          { start := 0, deadline := millis (2 ^ 32 - 1) } 0 = some (.ok outcome, looks) ∧
        outcome.found = false ∧ outcome.probes = 0 ∧ looks.length = 2 ^ 32 := by
  have ends := poll_fixed_milli Empty (m := 2 ^ 32 - 1) (by decide)
  exact ⟨Backoff.delayAfter_fixed_pos (by decide), by decide, _, _, ends, rfl, by decide, by simp⟩

end Samples

end Wait

end Replica

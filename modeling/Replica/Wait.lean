import Replica.Backoff
/-! Waiting for something to become true by looking again and again, with growing pauses, up to a
deadline. There is always a first look, and one at the deadline. -/
namespace Replica

/-- A wait under way. -/
structure Wait where
  /-- When the wait began. -/
  start : Instant
  /-- When it ends at the latest. -/
  deadline : Instant
  /-- How many pauses there were. The delays do not depend on it beyond 2147483647, so nothing bounds it. -/
  attempt : Nat := 0
  deriving DecidableEq, Repr

/-- How a wait ended. -/
structure WaitOutcome where
  /-- Whether a look succeeded. -/
  found : Bool
  /-- How often was looked, counted in 32 bits. The greatest count is followed by zero; where overflow is
  checked, the program stops there instead. -/
  count : UInt32
  /-- How long it took. -/
  elapsed : Duration
  deriving DecidableEq, Repr

/-- How often was looked, as it is reported. -/
def WaitOutcome.probes (o : WaitOutcome) : Nat := o.count.toNat

namespace Wait

/-- Starts a wait of some length, if the clock reaches its end. -/
def start? (now : Instant) (length : Duration) : Option Wait :=
  (Instant.after? now length).map fun deadline => { start := now, deadline }

/-- After a look that did not succeed: the end of the next pause, or none at the deadline. A pause
does not go on beyond the deadline. -/
def pause? (b : Backoff) (w : Wait) (now : Instant) : Option (Instant × Wait) :=
  if w.deadline ≤ now then none
  else
    let delay := min (b.delayAfter w.attempt) (w.deadline - now)
    some (Instant.afterPause now delay, { w with attempt := w.attempt + 1 })

/-- Looks and pauses until a look succeeds or fails or the deadline is reached. A look begins at a
moment and takes some time; its answer depends on how often was looked and on when it ends. Gives
the end and the moments at which looks began; none if `fuel` looks do not suffice. -/
def poll {ε : Type} (b : Backoff) (takes : Duration) (probe : Nat → Instant → Except ε Bool) :
    (fuel : Nat) → Wait → Instant → Option (Except ε WaitOutcome × List Instant)
  | 0, _, _ => none
  | fuel + 1, w, now =>
    let answered := Instant.afterPause now takes
    let ending (found : Bool) : WaitOutcome := ⟨found, .ofNat (w.attempt + 1), answered - w.start⟩
    match probe (w.attempt + 1) answered with
    | .error error => some (.error error, [now])
    | .ok true => some (.ok (ending true), [now])
    | .ok false =>
      match w.pause? b answered with
      | none => some (.ok (ending false), [now])
      | some (next, w) => (poll b takes probe fuel w next).map fun (result, times) =>
        (result, now :: times)

end Wait

end Replica

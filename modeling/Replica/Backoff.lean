import Replica.Duration
/-! Schedules of growing delays, how long messages wait for what they depend on, and how often a
delivery is tried. -/
namespace Replica

/-- A schedule of delays that grow by a factor up to a bound. -/
structure Backoff where
  /-- The first delay. -/
  initial : Duration
  /-- The bound on every delay. -/
  max : Duration
  /-- The factor from one delay to the next. -/
  multiplier : Binary64
  deriving DecidableEq

namespace Backoff

/-- Doubling delays. -/
def doubling (initial max : Duration) : Backoff := ⟨initial, max, 2⟩

/-- Always the same delay. -/
def fixed (delay : Duration) : Backoff := ⟨delay, delay, 1⟩

/-- From a quarter of a second up to five seconds. -/
def standard : Backoff := doubling (Duration.millis 250) (Duration.seconds 5)

/-- The delay after an attempt, counted from zero: the first delay times a power of the factor, in
binary64 seconds, up to the bound. Where that is no length of time, the bound. -/
def delayAfter (b : Backoff) (attempt : Nat) : Duration :=
  let seconds := b.initial.toFloat * b.multiplier.pow (min attempt 2147483647)
  (Duration.ofFloat? (seconds.min b.max.toFloat)).getD b.max

end Backoff

/-- How long messages may wait for the entities they refer to. -/
structure WaitBudget where
  /-- For messages caused by a change. -/
  organic : Duration := Duration.seconds 300
  /-- For messages that were asked for. -/
  forceSync : Duration := Duration.seconds 30
  /-- The delays between two looks. -/
  backoff : Backoff := .standard
  deriving DecidableEq

/-- The budget of a message. -/
def WaitBudget.budgetFor (w : WaitBudget) (isForceSync : Bool) : Duration :=
  if isForceSync then w.forceSync else w.organic

/-- How often a delivery is tried. -/
structure Retry where
  /-- The number of attempts, the first one included. -/
  maxAttempts : Nat
  /-- The delays between attempts. -/
  backoff : Backoff
  deriving DecidableEq

namespace Retry

/-- At least one attempt, with delays from a tenth of a second up to half a minute. -/
def ofAttempts (n : Nat) : Retry :=
  ⟨max n 1, .doubling (Duration.millis 100) (Duration.seconds 30)⟩

/-- Five attempts. -/
def standard : Retry := ofAttempts 5

/-- The delay before an attempt, counted from zero; the first one is never delayed. -/
def delayBefore (r : Retry) (attempt : Nat) : Duration :=
  match attempt with
  | 0 => 0
  | attempt + 1 => r.backoff.delayAfter attempt

end Retry

end Replica

/-! Ordering stamps and the clock that issues them. A stamp counts microseconds in 64 bits with sign;
only its order matters. The clock follows the wall clock but never repeats or goes back. -/
namespace Replica

/-- An ordering stamp. -/
structure Stamp where
  /-- Microseconds. -/
  micros : Int
  /-- The count has 64 bits with sign. -/
  inRange : -9223372036854775808 ≤ micros ∧ micros < 9223372036854775808
  deriving DecidableEq

namespace Stamp

instance : LT Stamp := ⟨fun a b => a.micros < b.micros⟩
instance : LE Stamp := ⟨fun a b => a.micros ≤ b.micros⟩
instance (a b : Stamp) : Decidable (a < b) := inferInstanceAs (Decidable (a.micros < b.micros))
instance (a b : Stamp) : Decidable (a ≤ b) := inferInstanceAs (Decidable (a.micros ≤ b.micros))
instance : Ord Stamp := ⟨fun a b => compare a.micros b.micros⟩

@[ext]
theorem ext_micros {a b : Stamp} (h : a.micros = b.micros) : a = b := by
  cases a; cases b; simpa using h

/-- The stamp of a count, if it fits. -/
def ofInt? (n : Int) : Option Stamp :=
  if h : -9223372036854775808 ≤ n ∧ n < 9223372036854775808 then some ⟨n, h⟩ else none

/-- The stamp before all of the common era: zero. -/
def zero : Stamp := ⟨0, by decide⟩

instance : Inhabited Stamp := ⟨zero⟩

/-- The greatest stamp. -/
def greatest : Stamp := ⟨9223372036854775807, by decide⟩

/-- The stamp one microsecond later; the greatest has none later. -/
def next (s : Stamp) : Stamp :=
  if h : s.micros + 1 < 9223372036854775808 then ⟨s.micros + 1, by have := s.inRange; omega⟩ else s

/-- The later of two stamps. -/
def later (a b : Stamp) : Stamp := if a < b then b else a

/-- The count in digits. -/
def text (s : Stamp) : String := toString s.micros

end Stamp

/-- A clock that has issued stamps up to `last`. -/
structure StampClock where
  /-- The stamp issued last, or what all stamps have to exceed. -/
  last : Stamp := .zero
  deriving DecidableEq

namespace StampClock

/-- The stamp due at a reading of the wall clock, after the one issued last: the reading, or the stamp
after the last one if that is later. -/
def due (wall last : Stamp) : Stamp := wall.later last.next

/-- Issues a stamp at a reading of the wall clock. -/
def issue (clock : StampClock) (wall : Stamp) : Stamp × StampClock :=
  let stamp := due wall clock.last
  (stamp, ⟨stamp⟩)

/-- A call for a stamp in atomic steps, for a clock that many ask at once. -/
inductive Call where
  /-- The wall clock has been read. -/
  | asking (wall : Stamp)
  /-- The stamp due after `seen` is about to be issued. -/
  | trying (wall seen : Stamp)
  /-- The stamp has been issued. -/
  | issued (stamp : Stamp)
  deriving DecidableEq

/-- One atomic step of a call. A stamp is issued only if no other was since the clock was last looked
at; otherwise the call tries again after the stamp it finds. -/
def Call.step (clock : StampClock) : Call → StampClock × Call
  | asking wall => (clock, trying wall clock.last)
  | trying wall seen =>
    if clock.last = seen then (⟨due wall seen⟩, issued (due wall seen))
    else (clock, trying wall clock.last)
  | issued stamp => (clock, issued stamp)

/-- Alone, a call issues its stamp in two steps. -/
theorem step_step_asking (clock : StampClock) (wall : Stamp) :
    (((Call.asking wall).step clock).2.step clock) =
      ((clock.issue wall).2, .issued (clock.issue wall).1) := by
  simp [Call.step, issue]

/-- Issues several stamps at one reading of the wall clock, in order. -/
def issueMany (wall : Stamp) : Nat → StampClock → List Stamp × StampClock
  | 0, clock => ([], clock)
  | n + 1, clock =>
    let (stamp, clock) := clock.issue wall
    let (stamps, clock) := issueMany wall n clock
    (stamp :: stamps, clock)

end StampClock

end Replica

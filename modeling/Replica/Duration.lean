import Replica.Number.Binary64
import Replica.Number.Decimal
/-! Lengths of time and moments of the running clock, in whole nanoseconds. -/
namespace Replica

/-- A length of time in nanoseconds. -/
abbrev Duration := Nat

/-- A moment, in nanoseconds since the clock started. -/
abbrev Instant := Nat

namespace Duration

/-- Nanoseconds in a second. -/
def perSecond : Nat := 1000000000

/-- A length of whole seconds. -/
def seconds (n : Nat) : Duration := n * perSecond

/-- A length of whole milliseconds. -/
def millis (n : Nat) : Duration := n * 1000000

/-- The greatest length: 2^64 - 1 seconds and all but one nanosecond of another. -/
def greatest : Duration := 18446744073709551616 * perSecond - 1

/-- The length in seconds, as a binary64 number: the whole seconds and the fraction are rounded
first. -/
def toFloat (d : Duration) : Binary64 :=
  Binary64.ofNat (d / perSecond) + Binary64.ofNat (d % perSecond) / Binary64.ofNat perSecond

/-- The length nearest to a number of seconds, halves of a nanosecond to the even one; there is none
for negative numbers, for 2^64 and more, and for no number. -/
def ofFloat? (x : Binary64) : Option Duration :=
  match x with
  | .finite x =>
    if x.negative ∧ x.units ≠ 0 then none
    else
      let d := roundHalfEven (x.units * perSecond) Binary64.unitsPerOne
      if d ≤ greatest then some d else none
  | _ => none

/-- A fraction of one in `width` decimal places, without the zeros at its end; nothing for zero. -/
def fractionText (fraction width : Nat) : List Char :=
  let digits := Nat.toDigits 10 fraction
  let padded := List.replicate (width - digits.length) '0' ++ digits
  let kept := (padded.reverse.dropWhile (· = '0')).reverse
  if kept.isEmpty then [] else '.' :: kept

/-- The length in its greatest unit of which it has at least one, as a decimal. -/
def text (d : Duration) : String :=
  let inUnit (places : Nat) (name : String) : String :=
    let one := Nat.pow 10 places
    toString (d / one) ++ String.ofList (fractionText (d % one) places) ++ name
  if 1000000000 ≤ d then inUnit 9 "s"
  else if 1000000 ≤ d then inUnit 6 "ms"
  else if 1000 ≤ d then inUnit 3 "µs"
  else inUnit 0 "ns"

end Duration

namespace Instant

/-- The clock ends before this moment: its seconds have 63 bits. -/
def clockEnd : Instant := Duration.seconds 9223372036854775808

/-- A moment later by some length, if the clock reaches it. -/
def after? (now : Instant) (d : Duration) : Option Instant :=
  if now + d < clockEnd then some (now + d) else none

/-- A moment rounded up to a whole millisecond. -/
def ceilMillis (t : Instant) : Instant := (t + 999999) / 1000000 * 1000000

/-- A pause beyond the end of the clock is taken for thirty years. -/
def longestPause : Duration := Duration.seconds (86400 * 365 * 30)

/-- The end of a pause that starts now: at once for none, else at a whole millisecond. -/
def afterPause (now : Instant) (d : Duration) : Instant :=
  if d = 0 then now
  else ceilMillis ((after? now d).getD (now + longestPause))

end Instant

end Replica

import Replica.Number.Binary64
/-! Decimal texts of finite binary64 numbers: the fewest digits that still round to the number, the
nearest of those when there are several, and two ways of placing the point. -/
namespace Replica

/-- The positive decimal `digits * 10 ^ exponent`. -/
structure Decimal where
  /-- The digits, read as a whole number. -/
  digits : Nat
  /-- The power of ten of the last digit. -/
  exponent : Int
  deriving DecidableEq, Repr

namespace Decimal

/-- Drops zeros at the end of the digits; `fuel` bounds their number. -/
def stripZeros : (fuel : Nat) → Decimal → Decimal
  | 0, d => d
  | fuel + 1, d =>
    if d.digits ≠ 0 ∧ d.digits % 10 = 0 then stripZeros fuel ⟨d.digits / 10, d.exponent + 1⟩ else d

/-- A magnitude in powers of ten, as a quotient: units times the first by the second. -/
def frame (exponent : Int) : Nat × Nat :=
  match exponent with
  | .ofNat n => (1, Binary64.unitsPerOne * Nat.pow 10 n)
  | .negSucc n => (Nat.pow 10 (n + 1), Binary64.unitsPerOne)

/-- The power of ten of the first digit of a positive magnitude. -/
def leadingExponent (units : Nat) : Int :=
  let guess := ((units.log2 : Int) - BinaryFormat.double.unitExponent) * 30103 / 100000
  let (times, divisor) := frame (guess + 1)
  if divisor ≤ units * times then guess + 1 else guess

/-- A multiple of `10 ^ exponent` that rounds to the magnitude, if one of its two neighbours on that
grid does: the nearer of two, the even one of two equally near. The numbers that round to the
magnitude reach half way to its neighbours, end points included when its significand is even. -/
def onGrid? (units : Nat) (exponent : Int) : Option Decimal :=
  let (times, divisor) := frame exponent
  let scale := BinaryFormat.double.scale units
  let step := Nat.pow 2 scale
  let above := step
  let below := if scale ≠ 0 ∧ units = Nat.pow 2 (BinaryFormat.double.fraction + scale) then step / 2
    else step
  let closed := units / step % 2 = 0
  let rounds (c : Nat) : Bool :=
    let at2 := 2 * c * divisor
    let least := (2 * units - below) * times
    let most := (2 * units + above) * times
    if closed then least ≤ at2 && at2 ≤ most else least < at2 && at2 < most
  let low := units * times / divisor
  let rest := 2 * (units * times % divisor)
  let nearer := if rest < divisor then low else if divisor < rest then low + 1 else low + low % 2
  let other := if nearer = low then low + 1 else low
  if rounds nearer then some ⟨nearer, exponent⟩
  else if rounds other then some ⟨other, exponent⟩
  else none

/-- The shortest decimal that rounds to a positive magnitude. Seventeen digits always suffice. -/
def shortest (units : Nat) : Decimal :=
  let leading := leadingExponent units
  let found := (List.range 17).findSome? fun (n : Nat) => onGrid? units (leading - n)
  stripZeros 20 (found.getD ⟨units, 0⟩)

/-- The decimal digits of a natural number. -/
def digitChars (n : Nat) : List Char := Nat.toDigits 10 n

/-- The digits with a point among them, zeros filling the places between. A whole number ends in
`.0`. -/
def positional (d : Decimal) : List Char :=
  let ds := digitChars d.digits
  let point : Int := ds.length + d.exponent
  if 0 ≤ d.exponent then ds ++ List.replicate d.exponent.toNat '0' ++ ['.', '0']
  else if 0 < point then ds.take point.toNat ++ '.' :: ds.drop point.toNat
  else ['0', '.'] ++ List.replicate (-point).toNat '0' ++ ds

/-- One digit before the point, and the power of ten with its sign. -/
def scientific (d : Decimal) : List Char :=
  let ds := digitChars d.digits
  let power : Int := ds.length - 1 + d.exponent
  let fraction := if ds.length ≤ 1 then [] else '.' :: ds.drop 1
  let sign := if power < 0 then '-' else '+'
  ds.take 1 ++ fraction ++ 'e' :: sign :: digitChars power.natAbs

end Decimal

namespace Finite64

/-- A sign and the text of the magnitude. -/
def signed (x : Finite64) (text : Decimal → List Char) : List Char :=
  let magnitude := if x.units = 0 then ['0', '.', '0'] else text (Decimal.shortest x.units)
  if x.negative then '-' :: magnitude else magnitude

/-- The compact text: positional from 10^-5 up to 10^16, scientific outside, always with a point or
an exponent. -/
def text (x : Finite64) : String :=
  String.ofList <| x.signed fun d =>
    let point : Int := (Decimal.digitChars d.digits).length + d.exponent
    if -5 < point ∧ point ≤ 16 then d.positional else d.scientific

/-- The positional text, however long. -/
def plainText (x : Finite64) : String := String.ofList (x.signed Decimal.positional)

end Finite64

/-- The positional text of any binary64 number. -/
def Binary64.plainText : Binary64 → String
  | finite x => x.plainText
  | infinite false => "inf"
  | infinite true => "-inf"
  | nan => "NaN"

end Replica

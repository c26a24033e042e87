/-! Binary floating-point numbers as exact whole numbers. Every finite binary64 number is a whole
number of units of 2^-1074, so its magnitude is a natural number here, and each operation is exact
arithmetic followed by one rounding. Narrower formats have coarser units and are reached by exact
division. -/
namespace Replica

/-- The shape of a binary interchange format. -/
structure BinaryFormat where
  /-- Bits of the stored fraction. -/
  fraction : Nat
  /-- Bits of the stored exponent. -/
  exponent : Nat
  deriving DecidableEq, Repr

namespace BinaryFormat

/-- Half precision. -/
def half : BinaryFormat := ⟨10, 5⟩

/-- Single precision. -/
def single : BinaryFormat := ⟨23, 8⟩

/-- Double precision. -/
def double : BinaryFormat := ⟨52, 11⟩

/-- One unit is two to the minus this many: the least positive number of the format. -/
def unitExponent (f : BinaryFormat) : Nat := Nat.pow 2 (f.exponent - 1) - 2 + f.fraction

/-- Stored exponents from here on mean infinities and the absence of a number. -/
def specialExponent (f : BinaryFormat) : Nat := Nat.pow 2 f.exponent - 1

/-- The first number of units that is too large. -/
def limit (f : BinaryFormat) : Nat := Nat.pow 2 (f.fraction + f.specialExponent - 1)

/-- The spacing of the format's numbers around `units`, as a power of two. -/
def scale (f : BinaryFormat) (units : Nat) : Nat := units.log2 - f.fraction

/-- Whether a magnitude, in units of the format, is one of its numbers. -/
def Representable (f : BinaryFormat) (units : Nat) : Prop :=
  units < f.limit ∧ units % Nat.pow 2 (f.scale units) = 0

instance (f : BinaryFormat) (units : Nat) : Decidable (f.Representable units) :=
  inferInstanceAs (Decidable (_ ∧ _))

theorem representable_zero (f : BinaryFormat) : f.Representable 0 :=
  ⟨Nat.two_pow_pos _, Nat.zero_mod _⟩

/-- Exponent and fraction bits of a representable magnitude. -/
def pattern (f : BinaryFormat) (units : Nat) : Nat :=
  if units < Nat.pow 2 f.fraction then units
  else f.scale units * Nat.pow 2 f.fraction + units / Nat.pow 2 (f.scale units)

/-- The magnitude that exponent and fraction bits stand for. -/
def magnitude (f : BinaryFormat) (exponent fraction : Nat) : Nat :=
  if exponent = 0 then fraction else (Nat.pow 2 f.fraction + fraction) * Nat.pow 2 (exponent - 1)

end BinaryFormat

/-- A finite binary64 number. Zero has two signs. -/
structure Finite64 where
  /-- The sign bit. -/
  negative : Bool
  /-- The magnitude in units of 2^-1074. -/
  units : Nat
  /-- The magnitude has at most 53 significant bits and is below 2^1024. -/
  representable : BinaryFormat.double.Representable units
  deriving DecidableEq

/-- A binary64 number. -/
inductive Binary64 where
  /-- A finite number. -/
  | finite (x : Finite64)
  /-- An infinity. -/
  | infinite (negative : Bool)
  /-- No number. -/
  | nan
  deriving DecidableEq

/-- A quotient rounded to the nearest whole number, halves to the even one. -/
def roundHalfEven (num den : Nat) : Nat :=
  let low := num / den
  let rest := 2 * (num % den)
  if rest < den then low
  else if den < rest then low + 1
  else low + low % 2

/-- A quotient rounded to 53 significant bits, or to a whole number where that is coarser. -/
def roundSignificant (num den : Nat) : Nat :=
  let step := Nat.pow 2 (BinaryFormat.double.scale (num / den))
  roundHalfEven num (den * step) * step

namespace Finite64

/-- Positive zero. -/
def zero : Finite64 := ⟨false, 0, BinaryFormat.representable_zero _⟩

/-- The same magnitude with the other sign. -/
def neg (x : Finite64) : Finite64 := { x with negative := !x.negative }

/-- The 64 bits of the number. -/
def toBits (x : Finite64) : Nat :=
  (if x.negative then 9223372036854775808 else 0) + BinaryFormat.double.pattern x.units

/-- The bits of the number in a narrower format, if it is one of that format's numbers. -/
def narrow? (f : BinaryFormat) (x : Finite64) : Option Nat :=
  let grain := Nat.pow 2 (BinaryFormat.double.unitExponent - f.unitExponent)
  let units := x.units / grain
  if x.units % grain = 0 ∧ f.Representable units then
    some ((if x.negative then Nat.pow 2 (f.fraction + f.exponent) else 0) + f.pattern units)
  else none

end Finite64

namespace Binary64

/-- One unit is this fraction of one. -/
def unitsPerOne : Nat := Nat.pow 2 BinaryFormat.double.unitExponent

/-- The number with a magnitude already on the grid; anything beyond it is infinite. -/
def ofUnits (negative : Bool) (units : Nat) : Binary64 :=
  if h : BinaryFormat.double.Representable units then .finite ⟨negative, units, h⟩
  else .infinite negative

/-- The number nearest to `num / den` units. -/
def ofQuotient (negative : Bool) (num den : Nat) : Binary64 :=
  ofUnits negative (roundSignificant num den)

/-- The number nearest to a whole number. -/
def ofNat (n : Nat) : Binary64 := ofQuotient false (n * unitsPerOne) 1

/-- Reads the bits of a number in any of the formats, exactly. -/
def ofBits (f : BinaryFormat) (bits : Nat) : Binary64 :=
  let fraction := bits % Nat.pow 2 f.fraction
  let exponent := bits / Nat.pow 2 f.fraction % Nat.pow 2 f.exponent
  let negative := bits / Nat.pow 2 (f.fraction + f.exponent) % 2 = 1
  if exponent = f.specialExponent then
    if fraction = 0 then .infinite negative else .nan
  else
    ofUnits negative
      (f.magnitude exponent fraction * Nat.pow 2 (BinaryFormat.double.unitExponent - f.unitExponent))

/-- The sign bit; the absent number counts as positive. -/
def isNegative : Binary64 → Bool
  | finite x => x.negative
  | infinite negative => negative
  | nan => false

/-- The number with its sign turned. -/
def neg : Binary64 → Binary64
  | finite x => finite x.neg
  | infinite negative => infinite !negative
  | nan => nan

/-- The sum, rounded to nearest. -/
def add : Binary64 → Binary64 → Binary64
  | nan, _ => nan
  | _, nan => nan
  | infinite a, infinite b => if a = b then infinite a else nan
  | infinite a, _ => infinite a
  | _, infinite b => infinite b
  | finite x, finite y =>
    if x.negative = y.negative then ofQuotient x.negative (x.units + y.units) 1
    else if y.units < x.units then ofQuotient x.negative (x.units - y.units) 1
    else if x.units < y.units then ofQuotient y.negative (y.units - x.units) 1
    else finite Finite64.zero

/-- The product, rounded to nearest. -/
def mul : Binary64 → Binary64 → Binary64
  | nan, _ => nan
  | _, nan => nan
  | infinite a, infinite b => infinite (a != b)
  | infinite a, finite y => if y.units = 0 then nan else infinite (a != y.negative)
  | finite x, infinite b => if x.units = 0 then nan else infinite (x.negative != b)
  | finite x, finite y => ofQuotient (x.negative != y.negative) (x.units * y.units) unitsPerOne

/-- The quotient, rounded to nearest. -/
def div : Binary64 → Binary64 → Binary64
  | nan, _ => nan
  | _, nan => nan
  | infinite _, infinite _ => nan
  | infinite a, finite y => infinite (a != y.negative)
  | finite x, infinite b => finite { Finite64.zero with negative := x.negative != b }
  | finite x, finite y =>
    if y.units = 0 then
      if x.units = 0 then nan else infinite (x.negative != y.negative)
    else ofQuotient (x.negative != y.negative) (x.units * unitsPerOne) y.units

/-- Strictly less, as numbers; false when either is absent. -/
def lt : Binary64 → Binary64 → Bool
  | nan, _ => false
  | _, nan => false
  | infinite a, infinite b => a && !b
  | infinite a, finite _ => a
  | finite _, infinite b => !b
  | finite x, finite y =>
    match x.negative, y.negative with
    | false, false => x.units < y.units
    | true, true => y.units < x.units
    | true, false => x.units != 0 || y.units != 0
    | false, true => false

/-- The lesser of two numbers; an absent number gives way to the other. -/
def min : Binary64 → Binary64 → Binary64
  | nan, b => b
  | a, nan => a
  | a, b => if lt b a then b else a

instance : Add Binary64 := ⟨add⟩
instance : Mul Binary64 := ⟨mul⟩
instance : Div Binary64 := ⟨div⟩
instance : Neg Binary64 := ⟨neg⟩
instance (n : Nat) : OfNat Binary64 n := ⟨ofNat n⟩

/-- A natural power by repeated squaring, each product rounded: the running square is taken only
while exponent bits remain. -/
def pow (x : Binary64) (n : Nat) : Binary64 :=
  go x n 1
where
  /-- Multiplies the odd powers into `acc`. -/
  go (x : Binary64) (n : Nat) (acc : Binary64) : Binary64 :=
    let acc := if n % 2 = 1 then acc * x else acc
    if h : n / 2 = 0 then acc else go (x * x) (n / 2) acc
  termination_by n
  decreasing_by omega

end Binary64

end Replica

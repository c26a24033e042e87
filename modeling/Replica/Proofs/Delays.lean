import Replica.Backoff
import Mathlib.Logic.Basic
import Mathlib.Tactic.SplitIfs
/-! How long the delays of a backoff are. They are computed in floating point, but rounding to nearest
never takes a number below one that the format has; so growing delays are never shorter than the first of
them, up to the bound. Delays that are to begin with no time begin so, and delays that may not be any time
are none. -/
namespace Replica

theorem div_le_roundHalfEven (num den : Nat) : num / den ≤ roundHalfEven num den := by
  unfold roundHalfEven
  dsimp only
  split_ifs <;> omega

theorem roundHalfEven_mono {a b : Nat} (den : Nat) (le : a ≤ b) : roundHalfEven a den ≤ roundHalfEven b den := by
  have quotients : a / den ≤ b / den := Nat.div_le_div_right le
  have whole_a := Nat.div_add_mod a den
  have whole_b := Nat.div_add_mod b den
  unfold roundHalfEven
  dsimp only
  rcases Nat.lt_or_eq_of_le quotients with less | same
  · split_ifs <;> omega
  · -- the same quotient, and so no lesser remainder
    rw [same] at whole_a
    rw [same]
    split_ifs <;> omega

namespace BinaryFormat

/-- A number of the format that is not greater than another number is not greater than what is left of that
when it is cut off to the format. -/
theorem le_cut {f : BinaryFormat} {u q : Nat} (exact_ : f.Representable u) (le : u ≤ q) :
    u ≤ q / Nat.pow 2 (f.scale q) * Nat.pow 2 (f.scale q) := by
  have cut {p : Nat} (whole : p % Nat.pow 2 (f.scale q) = 0) (le : p ≤ q) :
      p ≤ q / Nat.pow 2 (f.scale q) * Nat.pow 2 (f.scale q) := by
    rw [← Nat.div_mul_cancel (Nat.dvd_of_mod_eq_zero whole)]
    exact Nat.mul_le_mul_right _ (Nat.div_le_div_right le)
  rcases Nat.eq_zero_or_pos u with rfl | some
  · exact Nat.zero_le _
  · have logs : u.log2 ≤ q.log2 := by
      rw [Nat.le_log2 (by omega)]
      exact Nat.le_trans (Nat.log2_self_le (by omega)) le
    rcases Nat.lt_or_eq_of_le logs with less | same
    · -- a power of two lies between them
      have above : u < 2 ^ (u.log2 + 1) := Nat.lt_log2_self
      have power : 2 ^ (u.log2 + 1) ≤ 2 ^ q.log2 := Nat.pow_le_pow_right Nat.two_pos less
      have below : 2 ^ q.log2 ≤ q := Nat.log2_self_le (by omega)
      have whole : 2 ^ q.log2 % Nat.pow 2 (f.scale q) = 0 :=
        Nat.mod_eq_zero_of_dvd (Nat.pow_dvd_pow 2 (Nat.sub_le ..))
      exact Nat.le_trans (by omega) (cut whole below)
    · refine cut ?_ le
      have scales : f.scale u = f.scale q := by rw [scale, scale, same]
      exact scales ▸ exact_.2

end BinaryFormat

/-- Rounding does not go below a number of the format. -/
theorem le_roundSignificant {u num den : Nat} (exact_ : BinaryFormat.double.Representable u) (some : 0 < den)
    (le : u * den ≤ num) : u ≤ roundSignificant num den := by
  have below : u ≤ num / den := (Nat.le_div_iff_mul_le some).2 le
  unfold roundSignificant
  dsimp only
  refine Nat.le_trans (BinaryFormat.le_cut exact_ below) (Nat.mul_le_mul_right _ ?_)
  rw [Nat.div_div_eq_div_mul]
  exact div_le_roundHalfEven ..

namespace Binary64

/-- A positive number of at least so many units, perhaps infinite. -/
inductive AtLeast (u : Nat) : Binary64 → Prop
  | finite {x : Finite64} (positive : x.negative = false) (least : u ≤ x.units) : AtLeast u (finite x)
  | infinite : AtLeast u (infinite false)

variable {u : Nat} {x y : Binary64}

theorem AtLeast.mono {v : Nat} (least : x.AtLeast u) (le : v ≤ u) : x.AtLeast v := by
  cases least with
  | finite plus least => exact .finite plus (Nat.le_trans le least)
  | infinite => exact .infinite

theorem atLeast_ofUnits {n : Nat} (le : u ≤ n) : (ofUnits false n).AtLeast u := by
  unfold ofUnits
  split
  · exact .finite rfl le
  · exact .infinite

theorem atLeast_ofQuotient {num den : Nat} (exact_ : BinaryFormat.double.Representable u) (some : 0 < den)
    (le : u * den ≤ num) : (ofQuotient false num den).AtLeast u :=
  atLeast_ofUnits (le_roundSignificant exact_ some le)

theorem unitsPerOne_pos : 0 < unitsPerOne := by decide +kernel

theorem representable_one : BinaryFormat.double.Representable unitsPerOne := by decide +kernel

theorem atLeast_ofNat {n : Nat} (some : 0 < n) : (ofNat n).AtLeast unitsPerOne :=
  atLeast_ofQuotient representable_one Nat.zero_lt_one
    (by rw [Nat.mul_one]; exact Nat.le_mul_of_pos_left _ some)

theorem atLeast_one : AtLeast unitsPerOne 1 := atLeast_ofNat Nat.zero_lt_one

theorem atLeast_two : AtLeast unitsPerOne 2 := atLeast_ofNat Nat.two_pos

theorem AtLeast.mul (left : x.AtLeast u) (right : y.AtLeast unitsPerOne)
    (exact_ : BinaryFormat.double.Representable u) (some : 0 < u) : (x * y).AtLeast u := by
  have positive := unitsPerOne_pos
  change (Binary64.mul x y).AtLeast u
  cases left with
  | finite plus least =>
    cases right with
    | finite plus' one =>
      rw [Binary64.mul, plus, plus']
      exact atLeast_ofQuotient exact_ positive (Nat.mul_le_mul least one)
    | infinite =>
      rw [Binary64.mul, if_neg (by omega), plus]
      exact .infinite
  | infinite =>
    cases right with
    | finite plus' one =>
      rw [Binary64.mul, if_neg (by omega), plus']
      exact .infinite
    | infinite => exact .infinite

theorem AtLeast.add {v w : Nat} (left : x.AtLeast v) (right : y.AtLeast w)
    (exact_ : BinaryFormat.double.Representable u) (le : u ≤ v + w) : (x + y).AtLeast u := by
  change (Binary64.add x y).AtLeast u
  cases left with
  | finite plus least =>
    cases right with
    | finite plus' least' =>
      rw [Binary64.add, if_pos (plus.trans plus'.symm), plus]
      exact atLeast_ofQuotient exact_ Nat.zero_lt_one (by omega)
    | infinite => exact .infinite
  | infinite => cases right <;> exact .infinite

/-- A quotient by a number that is not infinite. -/
theorem AtLeast.div {v : Nat} {y : Finite64} (left : x.AtLeast v) (plus' : y.negative = false) (some : 0 < y.units)
    (exact_ : BinaryFormat.double.Representable u) (le : u * y.units ≤ v * unitsPerOne) :
    (x / .finite y).AtLeast u := by
  change (Binary64.div x (.finite y)).AtLeast u
  cases left with
  | finite plus least =>
    rw [Binary64.div, if_neg (Nat.ne_of_gt some), plus, plus']
    exact atLeast_ofQuotient exact_ some (Nat.le_trans le (Nat.mul_le_mul_right _ least))
  | infinite =>
    rw [Binary64.div, plus']
    exact .infinite

theorem AtLeast.min (left : x.AtLeast u) (right : y.AtLeast u) : (x.min y).AtLeast u := by
  have either : x.min y = y ∨ x.min y = x := by
    cases left <;> cases right <;> rw [Binary64.min] <;> first | exact ite_eq_or_eq .. | nofun
  rcases either with same | same <;> rw [same] <;> assumption

/-- Nothing that is not negative is less than zero. -/
theorem zero_min (positive : x.AtLeast 0) : (finite Finite64.zero).min x = finite Finite64.zero := by
  cases positive with
  | finite plus _ => simp [Binary64.min, lt, Finite64.zero, plus]
  | infinite => simp [Binary64.min, lt]

theorem AtLeast.pow (one : x.AtLeast unitsPerOne) (n : Nat) : (x.pow n).AtLeast unitsPerOne := by
  suffices ∀ acc : Binary64, acc.AtLeast unitsPerOne → (pow.go x n acc).AtLeast unitsPerOne from
    this 1 (atLeast_ofNat Nat.zero_lt_one)
  induction n using Nat.strongRecOn generalizing x with
  | ind n fewer =>
    intro acc least
    have next : (if n % 2 = 1 then acc * x else acc).AtLeast unitsPerOne := by
      split
      · exact least.mul one representable_one unitsPerOne_pos
      · exact least
    rw [pow.go]
    split
    · exact next
    · exact fewer (n / 2) (by omega) (one.mul one representable_one unitsPerOne_pos) _ next

end Binary64

namespace Duration

/-- A little less than a nanosecond: two to the minus thirty seconds. -/
def leastUnits : Nat := Nat.pow 2 1044

theorem leastUnits_pos : 0 < leastUnits := by decide +kernel

theorem representable_leastUnits : BinaryFormat.double.Representable leastUnits := by decide +kernel

/-- A length of time is still some time in floating point. -/
theorem atLeast_toFloat {d : Duration} (some : 0 < d) : d.toFloat.AtLeast leastUnits := by
  have second : Binary64.ofNat perSecond =
      .finite ⟨false, perSecond * Binary64.unitsPerOne, by decide +kernel⟩ := by decide +kernel
  have exact_ := representable_leastUnits
  have zero := BinaryFormat.representable_zero .double
  have least : leastUnits ≤ Binary64.unitsPerOne := by decide +kernel
  unfold toFloat
  rw [second]
  rcases Nat.eq_zero_or_pos (d / perSecond) with none | whole
  · -- less than a second
    have part : 0 < d % perSecond := by
      have split := Nat.div_add_mod d perSecond
      rw [none, Nat.mul_zero, Nat.zero_add] at split
      rw [split]
      exact some
    have left : (Binary64.ofNat (d / perSecond)).AtLeast 0 :=
      Binary64.atLeast_ofQuotient zero Nat.zero_lt_one (by rw [Nat.zero_mul]; exact Nat.zero_le _)
    have right := (Binary64.atLeast_ofNat part).div (u := leastUnits)
      (y := ⟨false, perSecond * Binary64.unitsPerOne, by decide +kernel⟩) rfl (by decide +kernel) exact_
      (by decide +kernel)
    exact left.add right exact_ (Nat.le_add_left ..)
  · have left := Binary64.atLeast_ofNat whole
    have right : (Binary64.ofNat (d % perSecond) /
        .finite ⟨false, perSecond * Binary64.unitsPerOne, by decide +kernel⟩).AtLeast 0 := by
      refine Binary64.AtLeast.div (v := 0)
        (Binary64.atLeast_ofQuotient zero Nat.zero_lt_one (by rw [Nat.zero_mul]; exact Nat.zero_le _)) rfl
        (by decide +kernel) zero (by rw [Nat.zero_mul]; exact Nat.zero_le _)
    exact left.add right exact_ (Nat.le_add_right_of_le least)

theorem eq_of_ofFloat {x : Finite64} {d : Duration} (plus : x.negative = false)
    (length : ofFloat? (.finite x) = some d) : d = roundHalfEven (x.units * perSecond) Binary64.unitsPerOne := by
  rw [ofFloat?, if_neg (by simp [plus])] at length
  dsimp only at length
  split at length
  · exact (Option.some.inj length).symm
  · cases length

theorem ofFloat_pos {x : Binary64} {d : Duration} (least : x.AtLeast leastUnits)
    (length : ofFloat? x = some d) : 0 < d := by
  cases least with
  | infinite => cases length
  | @finite x plus least =>
    have one : roundHalfEven (leastUnits * perSecond) Binary64.unitsPerOne = 1 := by decide +kernel
    have more := roundHalfEven_mono Binary64.unitsPerOne (Nat.mul_le_mul_right perSecond least)
    rw [one] at more
    rw [eq_of_ofFloat plus length]
    exact more

theorem toFloat_zero : toFloat 0 = .finite Finite64.zero := by decide +kernel

theorem atLeast_zero_toFloat (d : Duration) : d.toFloat.AtLeast 0 := by
  rcases Nat.eq_zero_or_pos d with none | some
  · rw [none, toFloat_zero]
    exact .finite rfl (Nat.zero_le _)
  · exact (atLeast_toFloat some).mono (Nat.zero_le _)

/-- Zero is no time, with either sign. -/
theorem ofFloat_of_units_eq_zero {x : Finite64} (zero : x.units = 0) : ofFloat? (.finite x) = some 0 := by
  have rounded (den : Nat) : roundHalfEven 0 den = 0 := by
    simp [roundHalfEven]
  rw [ofFloat?, if_neg (by simp [zero]), zero, Nat.zero_mul, rounded]
  exact if_pos (Nat.zero_le _)

/-- A number of seconds that is bounded by zero is no time, or no length of time. -/
theorem getD_ofFloat_min_zero (x : Binary64) : (ofFloat? (x.min (.finite Finite64.zero))).getD 0 = 0 := by
  have zero : ofFloat? (.finite Finite64.zero) = some 0 := ofFloat_of_units_eq_zero rfl
  cases x with
  | nan => simp [Binary64.min, zero]
  | infinite negative =>
    cases negative with
    | true => simp [Binary64.min, Binary64.lt, ofFloat?]
    | false => simp [Binary64.min, Binary64.lt, zero]
  | finite x =>
    by_cases none : x.units = 0
    · have least : (Binary64.finite x).min (.finite Finite64.zero) = .finite x := by
        cases sign : x.negative <;> simp [Binary64.min, Binary64.lt, Finite64.zero, sign, none]
      rw [least, ofFloat_of_units_eq_zero none]
      rfl
    · cases sign : x.negative with
      | true => simp [Binary64.min, Binary64.lt, Finite64.zero, ofFloat?, sign, none]
      | false =>
        have least : (Binary64.finite x).min (.finite Finite64.zero) = .finite Finite64.zero := by
          simp [Binary64.min, Binary64.lt, Finite64.zero, sign, Nat.pos_of_ne_zero none]
        rw [least, zero]
        rfl

end Duration

namespace Backoff

variable {b : Backoff}

/-- Delays that do not shrink, from some time up to some time, are some time. -/
theorem delayAfter_pos (initial : 0 < b.initial) (max : 0 < b.max)
    (grows : b.multiplier.AtLeast Binary64.unitsPerOne) (attempt : Nat) : 0 < b.delayAfter attempt := by
  have least := ((Duration.atLeast_toFloat initial).mul (grows.pow (min attempt 2147483647))
    Duration.representable_leastUnits Duration.leastUnits_pos).min (Duration.atLeast_toFloat max)
  unfold delayAfter
  cases length : Duration.ofFloat? ((b.initial.toFloat * b.multiplier.pow (min attempt 2147483647)).min
      b.max.toFloat) with
  | none => simpa [length] using max
  | some d => simpa [length] using Duration.ofFloat_pos least length

/-- No delay is longer than the bound, if the bound is a floating point number of seconds. -/
theorem delayAfter_le (initial : 0 < b.initial) (max : 0 < b.max)
    (grows : b.multiplier.AtLeast Binary64.unitsPerOne) (exact_ : Duration.ofFloat? b.max.toFloat = some b.max)
    (attempt : Nat) : b.delayAfter attempt ≤ b.max := by
  have grown := (Duration.atLeast_toFloat initial).mul (grows.pow (min attempt 2147483647))
    Duration.representable_leastUnits Duration.leastUnits_pos
  have bound := Duration.atLeast_toFloat max
  unfold delayAfter
  dsimp only
  generalize b.initial.toFloat * b.multiplier.pow (min attempt 2147483647) = seconds at grown
  generalize b.max.toFloat = most at bound exact_
  cases bound with
  | infinite => cases exact_
  | @finite y plus' _ =>
    have bounded := Duration.eq_of_ofFloat plus' exact_
    cases grown with
    | infinite =>
      have bound : (Binary64.infinite false).min (.finite y) = .finite y := rfl
      simp [bound, exact_]
    | @finite x plus _ =>
      by_cases beyond : y.units < x.units
      · have bound : (Binary64.finite x).min (.finite y) = .finite y := by
          simp [Binary64.min, Binary64.lt, plus, plus', beyond]
        simp [bound, exact_]
      · have within : (Binary64.finite x).min (.finite y) = .finite x := by
          simp [Binary64.min, Binary64.lt, plus, plus', beyond]
        rw [within]
        cases length : Duration.ofFloat? (.finite x) with
        | none => exact Nat.le_refl _
        | some d =>
          rw [Option.getD_some, Duration.eq_of_ofFloat plus length, bounded]
          exact roundHalfEven_mono _ (Nat.mul_le_mul_right _ (Nat.not_lt.1 beyond))

theorem grows_fixed (d : Duration) : (fixed d).multiplier.AtLeast Binary64.unitsPerOne := by
  dsimp only [fixed]
  exact Binary64.atLeast_one

/-- A fixed delay that was to be some time is some. -/
theorem delayAfter_fixed_pos {d : Duration} (some : 0 < d) (attempt : Nat) : 0 < (fixed d).delayAfter attempt :=
  delayAfter_pos some some (grows_fixed d) attempt

/-- A schedule that begins without a delay. -/
theorem delayAfter_eq_zero_of_initial (none : b.initial = 0) : b.delayAfter 0 = 0 := by
  have first : b.multiplier.pow 0 = 1 := by
    rw [Binary64.pow, Binary64.pow.go]
    rfl
  have product : Binary64.finite Finite64.zero * 1 = .finite Finite64.zero := by decide +kernel
  rw [delayAfter, none, Duration.toFloat_zero, Nat.zero_min, first, product,
    Binary64.zero_min (Duration.atLeast_zero_toFloat b.max), Duration.ofFloat_of_units_eq_zero rfl]
  rfl

/-- A schedule whose delays may not be any time. -/
theorem delayAfter_eq_zero_of_max (none : b.max = 0) (attempt : Nat) : b.delayAfter attempt = 0 := by
  rw [delayAfter, none, Duration.toFloat_zero]
  exact Duration.getD_ofFloat_min_zero _

end Backoff

end Replica

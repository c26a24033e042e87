import Replica.Cbor.Writer
import Replica.Proofs.Heads
/-! Binary floating-point numbers and their bits. In each format a number's exponent and fraction tell its
magnitude exactly, and a number that a narrower format has is written in that format without loss. -/
namespace Replica

namespace BinaryFormat

variable {f : BinaryFormat} {units : Nat}

/-- What is left of a number by its scale: as many binary digits as the fraction has, and the hidden one. -/
theorem digits_bounds (normal : 2 ^ f.fraction ≤ units) :
    2 ^ f.fraction ≤ units / 2 ^ f.scale units ∧ units / 2 ^ f.scale units < 2 * 2 ^ f.fraction := by
  have positive : units ≠ 0 := by
    have := Nat.two_pow_pos f.fraction
    omega
  have enough : f.fraction ≤ units.log2 := (Nat.le_log2 positive).2 normal
  have split_ : units.log2 = f.fraction + f.scale units := by
    unfold scale
    omega
  have low : 2 ^ f.fraction * 2 ^ f.scale units ≤ units := by
    rw [← Nat.pow_add, ← split_]
    exact Nat.log2_self_le positive
  have high : units < 2 * 2 ^ f.fraction * 2 ^ f.scale units := by
    rw [Nat.mul_assoc, ← Nat.pow_add, ← split_, ← Nat.pow_succ']
    exact Nat.lt_log2_self
  exact ⟨(Nat.le_div_iff_mul_le (Nat.two_pow_pos _)).2 low, (Nat.div_lt_iff_lt_mul (Nat.two_pow_pos _)).2 high⟩

/-- The exponent of a number stays below those that mean none. -/
theorem scale_lt (representable : f.Representable units) (normal : 2 ^ f.fraction ≤ units) :
    f.scale units + 1 < f.specialExponent := by
  have positive : units ≠ 0 := by
    have := Nat.two_pow_pos f.fraction
    omega
  have enough : f.fraction ≤ units.log2 := (Nat.le_log2 positive).2 normal
  have below : units.log2 < f.fraction + f.specialExponent - 1 :=
    (Nat.log2_lt positive).2 representable.1
  unfold scale
  omega

/-- Exponent and fraction of a number, read off its pattern, stand for its magnitude. -/
theorem magnitude_pattern (some_ : 0 < f.exponent) (representable : f.Representable units) :
    f.pattern units / 2 ^ f.fraction < f.specialExponent ∧
      f.magnitude (f.pattern units / 2 ^ f.fraction) (f.pattern units % 2 ^ f.fraction) = units := by
  unfold pattern magnitude
  simp only [Nat.pow_eq]
  by_cases normal : 2 ^ f.fraction ≤ units
  · obtain ⟨low, high⟩ := digits_bounds normal
    have exact_ : units / 2 ^ f.scale units * 2 ^ f.scale units = units :=
      Nat.div_mul_cancel (Nat.dvd_of_mod_eq_zero representable.2)
    have below := scale_lt representable normal
    have wide := Nat.two_pow_pos f.fraction
    rw [if_neg (by omega)]
    generalize units / 2 ^ f.scale units = digits at low high exact_
    have parts : f.scale units * 2 ^ f.fraction + digits =
        (digits - 2 ^ f.fraction) + (f.scale units + 1) * 2 ^ f.fraction := by
      rw [Nat.add_mul]
      omega
    have exponent : (f.scale units * 2 ^ f.fraction + digits) / 2 ^ f.fraction = f.scale units + 1 := by
      rw [parts, Nat.add_mul_div_right _ _ wide, Nat.div_eq_of_lt (by omega), Nat.zero_add]
    have fraction : (f.scale units * 2 ^ f.fraction + digits) % 2 ^ f.fraction =
        digits - 2 ^ f.fraction := by
      rw [parts, Nat.add_mul_mod_self_right, Nat.mod_eq_of_lt (by omega)]
    rw [exponent, fraction, if_neg (by omega), Nat.add_sub_cancel' low, Nat.add_sub_cancel]
    exact ⟨below, exact_⟩
  · have least := Nat.lt_of_not_le normal
    rw [if_pos least, Nat.div_eq_of_lt least, Nat.mod_eq_of_lt least, if_pos rfl]
    refine ⟨?_, rfl⟩
    have two : 2 ^ 1 ≤ 2 ^ f.exponent := Nat.pow_le_pow_right (by decide) some_
    unfold specialExponent
    simp only [Nat.pow_eq]
    omega

theorem pattern_lt (some_ : 0 < f.exponent) (representable : f.Representable units) :
    f.pattern units < 2 ^ (f.fraction + f.exponent) := by
  have below := (magnitude_pattern some_ representable).1
  have less : f.specialExponent ≤ 2 ^ f.exponent := Nat.sub_le _ _
  rw [Nat.pow_add, Nat.mul_comm]
  exact (Nat.div_lt_iff_lt_mul (Nat.two_pow_pos _)).1 (Nat.lt_of_lt_of_le below less)

/-- The fields of a pattern are not touched by the sign before it. -/
theorem fields_signed {pattern : Nat} (fits : pattern < 2 ^ (f.fraction + f.exponent)) (negative : Bool) :
    let bits := (if negative then 2 ^ (f.fraction + f.exponent) else 0) + pattern
    bits % 2 ^ f.fraction = pattern % 2 ^ f.fraction ∧
      bits / 2 ^ f.fraction % 2 ^ f.exponent = pattern / 2 ^ f.fraction ∧
      decide (bits / 2 ^ (f.fraction + f.exponent) % 2 = 1) = negative := by
  have small : pattern / 2 ^ f.fraction < 2 ^ f.exponent := by
    rw [Nat.div_lt_iff_lt_mul (Nat.two_pow_pos _), Nat.mul_comm, ← Nat.pow_add]
    exact fits
  cases negative with
  | false => simp [Nat.mod_eq_of_lt small, Nat.div_eq_of_lt fits]
  | true =>
    have parts : 2 ^ (f.fraction + f.exponent) + pattern = pattern + 2 ^ f.fraction * 2 ^ f.exponent := by
      rw [Nat.pow_add, Nat.add_comm]
    have sign : (2 ^ (f.fraction + f.exponent) + pattern) / 2 ^ (f.fraction + f.exponent) = 1 := by
      rw [Nat.add_div_left _ (Nat.two_pow_pos _), Nat.div_eq_of_lt fits]
    simp only [if_true, sign]
    rw [parts, Nat.add_mul_mod_self_left, Nat.add_mul_div_left _ _ (Nat.two_pow_pos _), Nat.add_mod_right,
      Nat.mod_eq_of_lt small]
    exact ⟨rfl, rfl, rfl⟩

/-- The bits of a number with its sign read as that number. -/
theorem ofBits_pattern (some_ : 0 < f.exponent) (representable : f.Representable units) (negative : Bool) :
    Binary64.ofBits f ((if negative then 2 ^ (f.fraction + f.exponent) else 0) + f.pattern units) =
      .ofUnits negative (units * 2 ^ (double.unitExponent - f.unitExponent)) := by
  obtain ⟨below, magnitude⟩ := magnitude_pattern some_ representable
  obtain ⟨fraction, exponent, sign⟩ := fields_signed (pattern_lt some_ representable) negative
  unfold Binary64.ofBits
  simp only [Nat.pow_eq]
  rw [fraction, exponent, if_neg (Nat.ne_of_lt below), magnitude, sign]

theorem signed_pattern_lt (some_ : 0 < f.exponent) (representable : f.Representable units) (negative : Bool) :
    (if negative then 2 ^ (f.fraction + f.exponent) else 0) + f.pattern units <
      2 ^ (f.fraction + f.exponent + 1) := by
  have less := pattern_lt some_ representable
  rw [Nat.pow_succ]
  cases negative <;> simp <;> omega

end BinaryFormat

namespace Finite64

variable {f : BinaryFormat} {x : Finite64} {bits : Nat}

theorem ofUnits_units (x : Finite64) : Binary64.ofUnits x.negative x.units = .finite x :=
  dif_pos x.representable

/-- The bits of a number in a narrower format that has it read as the number, and are as many as the format
has. -/
theorem ofBits_of_narrow? (some_ : 0 < f.exponent) (narrow : x.narrow? f = some bits) :
    Binary64.ofBits f bits = .finite x ∧ bits < 2 ^ (f.fraction + f.exponent + 1) := by
  unfold narrow? at narrow
  simp only [Nat.pow_eq] at narrow
  split at narrow
  · rename_i fits
    obtain ⟨whole, representable⟩ := fits
    obtain rfl := Option.some.inj narrow
    refine ⟨?_, BinaryFormat.signed_pattern_lt some_ representable _⟩
    rw [BinaryFormat.ofBits_pattern some_ representable,
      Nat.div_mul_cancel (Nat.dvd_of_mod_eq_zero whole), ofUnits_units]
  · cases narrow

theorem ofBits_toBits (x : Finite64) :
    Binary64.ofBits .double x.toBits = .finite x ∧ x.toBits < 2 ^ 64 := by
  have same : x.toBits = (if x.negative then 2 ^ (52 + 11) else 0) + BinaryFormat.double.pattern x.units := rfl
  have read := BinaryFormat.ofBits_pattern (f := .double) (by decide) x.representable x.negative
  have less := BinaryFormat.signed_pattern_lt (f := .double) (by decide) x.representable x.negative
  rw [Nat.sub_self, Nat.pow_zero, Nat.mul_one, ofUnits_units] at read
  exact ⟨read, less⟩

end Finite64

namespace Cbor

/-- A float reads as what it is, bit by bit, whichever format it is written in. -/
theorem header_ofFloat (x : Finite64) (rest : List UInt8) :
    header (ofFloat x ++ rest) = .ok (.float (.finite x), rest) := by
  unfold ofFloat
  cases half : x.narrow? .half with
  | some bits =>
    obtain ⟨read, fits⟩ := Finite64.ofBits_of_narrow? (by decide) half
    have made := header_cons 0xf9 (bigEndianBytes 2 bits) (by simp; rfl) rest
    rw [bigEndian_bigEndianBytes fits] at made
    simpa [headerOf, read, Except.map] using made
  | none =>
    cases single : x.narrow? .single with
    | some bits =>
      obtain ⟨read, fits⟩ := Finite64.ofBits_of_narrow? (by decide) single
      have made := header_cons 0xfa (bigEndianBytes 4 bits) (by simp; rfl) rest
      rw [bigEndian_bigEndianBytes fits] at made
      simpa [headerOf, read, Except.map] using made
    | none =>
      obtain ⟨read, fits⟩ := x.ofBits_toBits
      have made := header_cons 0xfb (bigEndianBytes 8 x.toBits) (by simp; rfl) rest
      rw [bigEndian_bigEndianBytes fits] at made
      simpa [headerOf, read, Except.map] using made

end Cbor

end Replica

import Replica.Json.Printer
import Replica.Json.Reader
/-! Numbers as they are spelled. A whole number is read back as itself; and whatever a number is, its text
is what the rules for numbers allow, so it can be skipped without knowing how it would be read. From any other text
too, a number takes only characters that numbers are written with. -/
namespace Replica

namespace Json

/-! ### Digits -/

/-- Some digits, and nothing else. -/
def IsDigits (ds : List Char) : Prop := ds ≠ [] ∧ ∀ c ∈ ds, isDigit c = true

/-- The digits of a whole number: zero by itself, or digits of which the first is not zero. -/
def IsWhole (ds : List Char) : Prop := ds = ['0'] ∨ ds.head? ≠ some '0' ∧ IsDigits ds

/-- The text does not go on with digits, a point or an exponent. -/
def EndsNumber : List Char → Prop
  | [] => True
  | c :: _ => isDigit c = false ∧ c ≠ '.' ∧ c ≠ 'e' ∧ c ≠ 'E'

variable {ds rest : List Char}

theorem startsWithDigit_of_endsNumber (ends : EndsNumber rest) : startsWithDigit rest = false := by
  cases rest with
  | nil => rfl
  | cons c more => exact ends.1

theorem IsDigits.startsWithDigit (digits : IsDigits ds) (rest : List Char) :
    startsWithDigit (ds ++ rest) = true := by
  obtain ⟨c, more, rfl⟩ := List.exists_cons_of_ne_nil digits.1
  exact digits.2 c List.mem_cons_self

theorem dropWhile_isDigit (digits : ∀ c ∈ ds, isDigit c = true) (stop : startsWithDigit rest = false) :
    (ds ++ rest).dropWhile isDigit = rest := by
  rw [List.dropWhile_append_of_pos digits]
  cases rest with
  | nil => rfl
  | cons c more => exact List.dropWhile_cons_of_neg (by simpa [startsWithDigit] using stop)

theorem isDigits_digitChars (n : Nat) : IsDigits (Decimal.digitChars n) :=
  ⟨Nat.toDigits_ne_nil, fun _ among => Nat.isDigit_of_mem_toDigits (by decide) (by decide) among⟩

theorem head?_digitChars {n : Nat} (positive : n ≠ 0) : (Decimal.digitChars n).head? ≠ some '0' := by
  induction n using Nat.strongRecOn with
  | ind n ih =>
    unfold Decimal.digitChars at *
    by_cases single : n < 10
    · rw [Nat.toDigits_of_lt_base single]
      have all : ∀ digit < 10, digit ≠ 0 → [digit.digitChar].head? ≠ some '0' := by decide
      exact all n single positive
    · have first := ih (n / 10) (by omega) (by omega)
      obtain ⟨c, more, made⟩ := List.exists_cons_of_ne_nil (Nat.toDigits_ne_nil (n := n / 10) (b := 10))
      rw [Nat.toDigits_of_base_le (by decide) (Nat.le_of_not_lt single), made]
      rwa [made] at first

theorem isWhole_digitChars (n : Nat) : IsWhole (Decimal.digitChars n) := by
  by_cases zero : n = 0
  · subst n
    exact .inl rfl
  · exact .inr ⟨head?_digitChars zero, isDigits_digitChars n⟩

theorem IsWhole.isDigits (whole : IsWhole ds) : IsDigits ds := by
  rcases whole with rfl | ⟨-, digits⟩
  · exact ⟨by simp, List.forall_mem_singleton.2 rfl⟩
  · exact digits

/-! ### Whole numbers -/

theorem le_ofDigitChars (n : Nat) (ds : List Char) : n ≤ Nat.ofDigitChars 10 ds n := by
  induction ds generalizing n with
  | nil => exact Nat.le_refl n
  | cons c more ih =>
    have next := ih (10 * n + (c.toNat - '0'.toNat))
    rw [Nat.ofDigitChars_cons]
    omega

/-- Digits that fit are taken all. -/
theorem significand_append {n : Nat} (digits : ∀ c ∈ ds, isDigit c = true)
    (fits : Nat.ofDigitChars 10 ds n < 18446744073709551616) (stop : startsWithDigit rest = false) :
    significand n (ds ++ rest) = (Nat.ofDigitChars 10 ds n, ds.length, rest) := by
  induction ds generalizing n with
  | nil =>
    cases rest with
    | nil => rfl
    | cons c more =>
      have other : isDigit c = false := stop
      simp [significand, other, Nat.ofDigitChars]
  | cons c more ih =>
    obtain ⟨first, later⟩ := List.forall_mem_cons.1 digits
    have next : n * 10 + digitValue c = 10 * n + (c.toNat - '0'.toNat) := by
      rw [digitValue, Nat.mul_comm]
    rw [Nat.ofDigitChars_cons] at fits
    have room := Nat.lt_of_le_of_lt (le_ofDigitChars _ more) fits
    rw [List.cons_append, significand, next, if_pos ⟨first, room⟩, ih later fits]
    rfl

theorem numberTail_of_endsNumber (negative : Bool) (n : Nat) (ends : EndsNumber rest) :
    numberTail negative n rest = (do return (← wholeNumber negative n, rest)) := by
  unfold numberTail
  split
  · exact absurd rfl ends.2.1
  · exact absurd rfl ends.2.2.1
  · exact absurd rfl ends.2.2.2
  · rfl

/-- The digits of a number are read as that number. -/
theorem unsignedNumber_digitChars {n : Nat} (negative : Bool) (fits : n < 18446744073709551616)
    (ends : EndsNumber rest) :
    unsignedNumber negative (Decimal.digitChars n ++ rest) =
      (do return (← wholeNumber negative n, rest)) := by
  have stop := startsWithDigit_of_endsNumber ends
  by_cases zero : n = 0
  · subst n
    have zeros : Decimal.digitChars 0 ++ rest = '0' :: rest := rfl
    rw [zeros, unsignedNumber, stop]
    exact numberTail_of_endsNumber negative 0 ends
  · obtain ⟨some_, digits⟩ := isDigits_digitChars n
    have first := head?_digitChars zero
    have value : Nat.ofDigitChars 10 (Decimal.digitChars n) 0 = n := Nat.ofDigitChars_ten_toDigits
    obtain ⟨c, more, made⟩ := List.exists_cons_of_ne_nil some_
    rw [made] at digits first value ⊢
    obtain ⟨digit, later⟩ := List.forall_mem_cons.1 digits
    have notZero : c ≠ '0' := fun same => first (congrArg some same)
    rw [Nat.ofDigitChars_cons, Nat.mul_zero, Nat.zero_add] at value
    have taken := significand_append (n := digitValue c) later (by rw [digitValue, value]; exact fits) stop
    rw [digitValue, value] at taken
    unfold unsignedNumber
    split
    · rename_i none_
      cases none_
    · rename_i same
      exact absurd (List.cons.inj same).1 notZero
    · rename_i c' _ same
      obtain ⟨rfl, rfl⟩ := List.cons.inj same
      have start : digitValue c = c.toNat - '0'.toNat := rfl
      simp only [List.append_eq, start, taken]
      rw [if_pos digit]
      simp only [stop, Bool.false_eq_true, if_false]
      exact numberTail_of_endsNumber negative n ends

theorem toList_toString_ofNat (n : Nat) : (toString (n : Int)).toList = Decimal.digitChars n :=
  String.toList_ofList

theorem toList_toString_neg {n : Nat} (positive : 0 < n) :
    (toString (-(n : Int))).toList = '-' :: Decimal.digitChars n := by
  obtain ⟨n, rfl⟩ : ∃ before, n = before + 1 := ⟨n - 1, by omega⟩
  have made : toString (-((n + 1 : Nat) : Int)) = "-" ++ String.ofList (Nat.toDigits 10 (n + 1)) := rfl
  rw [made, String.toList_append, String.toList_ofList, String.toList_ofList]
  rfl

/-- The digits of a number, with a sign before them or not, as a number starts. -/
theorem number_digitChars (n : Nat) (rest : List Char) :
    number (Decimal.digitChars n ++ rest) = unsignedNumber false (Decimal.digitChars n ++ rest) := by
  have minus : '-' ∉ Decimal.digitChars n := fun among => by
    have digit := (isDigits_digitChars n).2 _ among
    exact absurd digit (by decide)
  obtain ⟨c, more, made⟩ := List.exists_cons_of_ne_nil (isDigits_digitChars n).1
  rw [made] at minus ⊢
  have other : c ≠ '-' := fun same => minus (same ▸ List.mem_cons_self)
  unfold number
  split
  · rename_i same
    exact absurd (List.cons.inj same).1 other
  · rfl

/-- A whole number is read back as itself. -/
theorem number_text_int {n : Int} (inRange : -9223372036854775808 ≤ n ∧ n < 18446744073709551616)
    (ends : EndsNumber rest) :
    number ((Number.text (.int n inRange)).toList ++ rest) = .ok (.int n inRange, rest) := by
  unfold Number.text
  by_cases negative : n < 0
  · obtain ⟨m, rfl⟩ : ∃ m : Nat, n = -(m : Int) := ⟨n.natAbs, by omega⟩
    have positive : 0 < m := by omega
    have fits : 0 < m ∧ m ≤ 9223372036854775808 := by omega
    have value : wholeNumber true m = .ok (.int (-(m : Int)) inRange) := by
      rw [wholeNumber, if_pos rfl, dif_pos fits]
    rw [toList_toString_neg positive, List.cons_append, number,
      unsignedNumber_digitChars true (by omega) ends, value]
    rfl
  · obtain ⟨m, rfl⟩ : ∃ m : Nat, n = (m : Int) := ⟨n.toNat, by omega⟩
    have fits : m < 18446744073709551616 := by omega
    have value : wholeNumber false m = .ok (.int (m : Int) inRange) := by
      rw [wholeNumber, if_neg (by decide), dif_pos fits]
    rw [toList_toString_ofNat, number_digitChars, unsignedNumber_digitChars false fits ends, value]
    rfl

/-! ### The rules for numbers -/

/-- A number as the rules have it, its sign aside: the digits of a whole number, then perhaps a point with
digits, and perhaps an exponent. -/
def IsUnsigned (cs : List Char) : Prop :=
  ∃ whole fraction exponent, cs = whole ++ (fraction ++ exponent) ∧ IsWhole whole ∧
    (fraction = [] ∨ ∃ ds, fraction = '.' :: ds ∧ IsDigits ds) ∧
    (exponent = [] ∨ ∃ sign ds, exponent = 'e' :: sign :: ds ∧ (sign = '+' ∨ sign = '-') ∧ IsDigits ds)

/-- A number as the rules have it. -/
def IsNumeral (cs : List Char) : Prop := IsUnsigned cs ∨ ∃ magnitude, cs = '-' :: magnitude ∧ IsUnsigned magnitude

theorem isUnsigned_digitChars (n : Nat) : IsUnsigned (Decimal.digitChars n) :=
  ⟨Decimal.digitChars n, [], [], by simp, isWhole_digitChars n, .inl rfl, .inl rfl⟩

theorem isNumeral_int {n : Int} (inRange : -9223372036854775808 ≤ n ∧ n < 18446744073709551616) :
    IsNumeral (Number.text (.int n inRange)).toList := by
  unfold Number.text
  by_cases negative : n < 0
  · obtain ⟨m, rfl⟩ : ∃ m : Nat, n = -(m : Int) := ⟨n.natAbs, by omega⟩
    exact .inr ⟨_, toList_toString_neg (by omega), isUnsigned_digitChars m⟩
  · obtain ⟨m, rfl⟩ : ∃ m : Nat, n = (m : Int) := ⟨n.toNat, by omega⟩
    rw [toList_toString_ofNat]
    exact .inl (isUnsigned_digitChars m)

end Json

namespace Decimal

theorem digits_stripZeros {d : Decimal} (some_ : d.digits ≠ 0) (fuel : Nat) :
    (stripZeros fuel d).digits ≠ 0 := by
  induction fuel generalizing d with
  | zero => exact some_
  | succ fuel ih =>
    unfold stripZeros
    split
    · rename_i tens
      exact ih (show d.digits / 10 ≠ 0 by omega)
    · exact some_

theorem frame_pos (exponent : Int) : 0 < (frame exponent).1 := by
  unfold frame
  cases exponent with
  | ofNat n => exact Nat.one_pos
  | negSucc n => exact Nat.pow_pos (by decide)

/-- What rounds to a positive magnitude is not zero: zero is farther away than half a step. -/
theorem digits_onGrid? {units : Nat} (positive : units ≠ 0) {exponent : Int} {d : Decimal}
    (found : onGrid? units exponent = some d) : d.digits ≠ 0 := by
  have apart := frame_pos exponent
  unfold onGrid? at found
  generalize frame exponent = size at apart found
  obtain ⟨times, divisor⟩ := size
  dsimp -zeta only at found apart
  extract_lets scale step above below closed least most rounds low rest nearer other at found
  have grain : step ≤ units :=
    Nat.le_trans (Nat.pow_le_pow_right (by decide) (Nat.sub_le _ _)) (Nat.log2_self_le positive)
  have near : below ≤ step := by
    simp only [below]
    split <;> omega
  have far : 0 < least := Nat.mul_pos (by omega) apart
  have zero : rounds 0 = false := by
    simp only [rounds]
    grind
  grind

theorem digits_shortest {units : Nat} (positive : units ≠ 0) : (shortest units).digits ≠ 0 := by
  unfold shortest
  apply digits_stripZeros
  cases found : (List.range 17).findSome? fun (n : Nat) => onGrid? units (leadingExponent units - n) with
  | none => exact positive
  | some d =>
    obtain ⟨n, -, made⟩ := List.exists_of_findSome?_eq_some found
    exact digits_onGrid? positive made

end Decimal

namespace Json

variable {ds rest : List Char}

theorem IsDigits.append (digits : IsDigits ds) {more : List Char} (later : ∀ c ∈ more, isDigit c = true) :
    IsDigits (ds ++ more) :=
  ⟨List.append_ne_nil_of_left_ne_nil digits.1 more, fun c among =>
    (List.mem_append.1 among).elim (digits.2 c) (later c)⟩

/-- What is written without a zero first stays so with more digits after it. -/
theorem isWhole_append (first : ds.head? ≠ some '0') (digits : IsDigits ds) {more : List Char}
    (later : ∀ c ∈ more, isDigit c = true) : IsWhole (ds ++ more) := by
  refine .inr ⟨?_, digits.append later⟩
  obtain ⟨c, tail, rfl⟩ := List.exists_cons_of_ne_nil digits.1
  exact first

theorem isUnsigned_positional {d : Decimal} (some_ : d.digits ≠ 0) : IsUnsigned d.positional := by
  have first := head?_digitChars some_
  have digits := isDigits_digitChars d.digits
  have zeros (n : Nat) : ∀ c ∈ List.replicate n '0', isDigit c = true := fun c among =>
    List.eq_of_mem_replicate among ▸ by decide
  unfold Decimal.positional
  extract_lets ds point
  split
  · exact ⟨ds ++ List.replicate d.exponent.toNat '0', ['.', '0'], [], by simp,
      isWhole_append first digits (zeros _), .inr ⟨['0'], rfl, by simp, List.forall_mem_singleton.2 rfl⟩, .inl rfl⟩
  split
  · -- the point stands between two digits
    rename_i less inside
    have before : point.toNat ≠ 0 := by omega
    have within : point.toNat < ds.length := by omega
    refine ⟨ds.take point.toNat, '.' :: ds.drop point.toNat, [], by simp, .inr ⟨?_, ?_, ?_⟩,
      .inr ⟨_, rfl, ?_, ?_⟩, .inl rfl⟩
    · rw [List.head?_take, if_neg before]
      exact first
    · simpa [before] using digits.1
    · exact fun c among => digits.2 c (List.mem_of_mem_take among)
    · simpa using within
    · exact fun c among => digits.2 c (List.mem_of_mem_drop among)
  · refine ⟨['0'], '.' :: (List.replicate (-point).toNat '0' ++ ds), [], by simp, .inl rfl,
      .inr ⟨_, rfl, ?_, ?_⟩, .inl rfl⟩
    · exact List.append_ne_nil_of_right_ne_nil _ digits.1
    · exact fun c among => (List.mem_append.1 among).elim (zeros _ c) (digits.2 c)

theorem isUnsigned_scientific {d : Decimal} (some_ : d.digits ≠ 0) : IsUnsigned d.scientific := by
  have first := head?_digitChars some_
  have digits := isDigits_digitChars d.digits
  unfold Decimal.scientific
  extract_lets ds power fraction sign
  have whole : IsWhole (ds.take 1) := by
    obtain ⟨c, tail, made⟩ := List.exists_cons_of_ne_nil digits.1
    rw [made] at first
    have digit : isDigit c = true := digits.2 c (made ▸ List.mem_cons_self)
    simp only [ds, made, List.take_succ_cons, List.take_zero]
    exact .inr ⟨first, by simp, by simpa using digit⟩
  refine ⟨ds.take 1, fraction, 'e' :: sign :: Decimal.digitChars power.natAbs, by simp, whole, ?_,
    .inr ⟨sign, _, rfl, ?_, isDigits_digitChars _⟩⟩
  · simp only [fraction]
    split
    · exact .inl rfl
    · refine .inr ⟨_, rfl, ?_, fun c among => digits.2 c (List.mem_of_mem_drop among)⟩
      rw [Ne, List.drop_eq_nil_iff]
      omega
  · simp only [sign]
    split
    · exact .inr rfl
    · exact .inl rfl

theorem isNumeral_float (x : Finite64) : IsNumeral x.text.toList := by
  unfold Finite64.text
  rw [String.toList_ofList]
  unfold Finite64.signed
  extract_lets magnitude
  have unsigned : IsUnsigned magnitude := by
    simp only [magnitude]
    split
    · exact ⟨['0'], ['.', '0'], [], rfl, .inl rfl, .inr ⟨['0'], rfl, by simp, List.forall_mem_singleton.2 rfl⟩, .inl rfl⟩
    · rename_i positive
      have some_ := Decimal.digits_shortest positive
      split
      · exact isUnsigned_positional some_
      · exact isUnsigned_scientific some_
  split
  · exact .inr ⟨magnitude, rfl, unsigned⟩
  · exact .inl unsigned

/-- The text of a number is what the rules allow. -/
theorem isNumeral_text (n : Number) : IsNumeral n.text.toList := by
  cases n with
  | int n inRange => exact isNumeral_int inRange
  | float x => exact isNumeral_float x

/-! ### Skipping -/

/-- Skips an exponent after its letter. -/
def skipExponent (cs : List Char) : Except Fault (List Char) :=
  let cs :=
    match cs with
    | '+' :: cs => cs
    | '-' :: cs => cs
    | cs => cs
  if startsWithDigit cs then .ok (cs.dropWhile isDigit) else .error .badNumber

/-- Skips what may follow the digits after a point. -/
def skipScale (cs : List Char) : Except Fault (List Char) :=
  match cs with
  | 'e' :: cs => skipExponent cs
  | 'E' :: cs => skipExponent cs
  | cs => .ok cs

/-- Skips what may follow the digits of a whole number. -/
def skipFraction (cs : List Char) : Except Fault (List Char) :=
  match cs with
  | 'e' :: cs => skipExponent cs
  | 'E' :: cs => skipExponent cs
  | '.' :: cs => if startsWithDigit cs then skipScale (cs.dropWhile isDigit) else .error .badNumber
  | cs => .ok cs

theorem skipNumber_eq (cs : List Char) :
    skipNumber cs =
      match cs with
      | '0' :: cs => if startsWithDigit cs then .error .badNumber else skipFraction cs
      | cs => if startsWithDigit cs then skipFraction (cs.dropWhile isDigit) else .error .badNumber := rfl

theorem skipNumber_whole (whole : IsWhole ds) (stop : startsWithDigit rest = false) :
    skipNumber (ds ++ rest) = skipFraction rest := by
  rw [skipNumber_eq]
  rcases whole with rfl | ⟨first, digits⟩
  · simp [stop]
  · split
    · rename_i same
      obtain ⟨c, more, rfl⟩ := List.exists_cons_of_ne_nil digits.1
      exact absurd (congrArg some (List.cons.inj same).1) first
    · rw [if_pos (digits.startsWithDigit rest), dropWhile_isDigit digits.2 stop]

theorem skipExponent_digits {sign : Char} (signed : sign = '+' ∨ sign = '-') (digits : IsDigits ds)
    (stop : startsWithDigit rest = false) : skipExponent (sign :: ds ++ rest) = .ok rest := by
  unfold skipExponent
  rcases signed with rfl | rfl <;>
    simp [digits.startsWithDigit, dropWhile_isDigit digits.2 stop]

theorem skipScale_of_endsNumber (ends : EndsNumber rest) : skipScale rest = .ok rest := by
  unfold skipScale
  split
  · exact absurd rfl ends.2.2.1
  · exact absurd rfl ends.2.2.2
  · rfl

theorem skipFraction_of_endsNumber (ends : EndsNumber rest) : skipFraction rest = .ok rest := by
  unfold skipFraction
  split
  · exact absurd rfl ends.2.2.1
  · exact absurd rfl ends.2.2.2
  · exact absurd rfl ends.2.1
  · rfl

/-- A number is skipped to its end. -/
theorem skipNumber_unsigned {cs : List Char} (unsigned : IsUnsigned cs) (ends : EndsNumber rest) :
    skipNumber (cs ++ rest) = .ok rest := by
  obtain ⟨whole, fraction, exponent, rfl, isWhole, isFraction, isExponent⟩ := unsigned
  have stop := startsWithDigit_of_endsNumber ends
  -- an exponent is skipped alike with digits after a point before it and without
  have scaled : startsWithDigit (exponent ++ rest) = false ∧ skipScale (exponent ++ rest) = .ok rest ∧
      skipFraction (exponent ++ rest) = .ok rest := by
    rcases isExponent with rfl | ⟨sign, ds, rfl, signed, digits⟩
    · exact ⟨stop, skipScale_of_endsNumber ends, skipFraction_of_endsNumber ends⟩
    · have skipped := skipExponent_digits signed digits stop
      exact ⟨rfl, skipped, skipped⟩
  obtain ⟨apart, scaled, bare⟩ := scaled
  rw [List.append_assoc, List.append_assoc]
  rcases isFraction with rfl | ⟨ds, rfl, digits⟩
  · rw [List.nil_append, skipNumber_whole isWhole apart, bare]
  · rw [skipNumber_whole isWhole rfl]
    change (if startsWithDigit (ds ++ (exponent ++ rest)) then
      skipScale ((ds ++ (exponent ++ rest)).dropWhile isDigit) else .error .badNumber) = _
    rw [if_pos (digits.startsWithDigit _), dropWhile_isDigit digits.2 apart, scaled]

theorem IsUnsigned.exists_cons {cs : List Char} (unsigned : IsUnsigned cs) :
    ∃ c more, cs = c :: more ∧ isDigit c = true := by
  obtain ⟨whole, fraction, exponent, rfl, isWhole, -⟩ := unsigned
  obtain ⟨c, more, rfl⟩ := List.exists_cons_of_ne_nil isWhole.isDigits.1
  exact ⟨c, _, rfl, isWhole.isDigits.2 c List.mem_cons_self⟩

theorem IsNumeral.exists_cons {cs : List Char} (numeral : IsNumeral cs) :
    ∃ c more, cs = c :: more ∧ (c = '-' ∨ isDigit c = true) := by
  rcases numeral with unsigned | ⟨magnitude, rfl, -⟩
  · obtain ⟨c, more, rfl, digit⟩ := unsigned.exists_cons
    exact ⟨c, more, rfl, .inr digit⟩
  · exact ⟨'-', magnitude, rfl, .inl rfl⟩

/-! ### What reading takes -/

/-- A character that numbers are written with. -/
def isNumeric (c : Char) : Bool := isDigit c || c = '+' || c = '-' || c = '.' || c = 'e' || c = 'E'

/-- What is left of a text after characters that numbers are written with. -/
def Eats (cs rest : List Char) : Prop := ∃ eaten, cs = eaten ++ rest ∧ ∀ c ∈ eaten, isNumeric c = true

section Eats

variable {cs mid rest : List Char} {negative : Bool} {n : Nat} {exponent : Int} {x : Number}

theorem Eats.refl (cs : List Char) : Eats cs cs := ⟨[], rfl, by simp⟩

theorem Eats.trans (first : Eats cs mid) (later : Eats mid rest) : Eats cs rest := by
  obtain ⟨some_, rfl, here⟩ := first
  obtain ⟨others, rfl, there⟩ := later
  exact ⟨some_ ++ others, by rw [List.append_assoc], fun c among => (List.mem_append.1 among).elim (here c) (there c)⟩

theorem Eats.cons {c : Char} (numeric : isNumeric c = true) (eats : Eats cs rest) : Eats (c :: cs) rest :=
  Eats.trans ⟨[c], rfl, by simpa using numeric⟩ eats

theorem isNumeric_of_isDigit {c : Char} (digit : isDigit c = true) : isNumeric c = true := by
  simp [isNumeric, digit]

theorem eats_dropWhile (cs : List Char) : Eats cs (cs.dropWhile isDigit) :=
  ⟨cs.takeWhile isDigit, List.takeWhile_append_dropWhile.symm, fun _ among =>
    isNumeric_of_isDigit (List.all_eq_true.1 List.all_takeWhile _ among)⟩

theorem eats_significand (n : Nat) (cs : List Char) : Eats cs (significand n cs).2.2 := by
  fun_induction significand n cs with
  | case1 => exact Eats.refl _
  | case2 n c cs fits m count rest taken ih =>
    rw [taken] at ih
    exact ih.cons (isNumeric_of_isDigit fits.1)
  | case3 => exact Eats.refl _

theorem eats_exponentDigits (n : Nat) (cs : List Char) : Eats cs (exponentDigits n cs).2.2 := by
  fun_induction exponentDigits n cs with
  | case1 => exact Eats.refl _
  | case2 n c cs digit _ ih => exact ih.cons (isNumeric_of_isDigit digit)
  | _ => exact Eats.refl _

theorem eats_sign {down : Bool} {after : List Char}
    (signed : (match cs with
      | '+' :: cs => (false, cs)
      | '-' :: cs => (true, cs)
      | cs => (false, cs)) = (down, after)) : Eats cs after := by
  split at signed
  · cases signed
    exact (Eats.refl _).cons (by decide)
  · cases signed
    exact (Eats.refl _).cons (by decide)
  · cases signed
    exact Eats.refl _

/-- A number that is made of what was read leaves the rest as it is. -/
theorem eats_return {made : Except Fault Number} (read : (do return (← made, cs)) = Except.ok (x, rest)) :
    Eats cs rest := by
  cases made with
  | error fault => cases read
  | ok value =>
    cases read
    exact Eats.refl _

theorem eats_exponentPart (read : exponentPart negative n exponent cs = .ok (x, rest)) : Eats cs rest := by
  revert read
  fun_cases exponentPart negative n exponent cs with
  | case1 => exact nofun
  | case2 => exact nofun
  | case3 down c more digit _ after taken _ signed =>
    intro read
    cases read
    have digits := eats_exponentDigits (digitValue c) more
    rw [taken] at digits
    exact (eats_sign signed).trans ((digits.cons (isNumeric_of_isDigit digit)).trans (eats_dropWhile after))
  | case4 down c more digit e after taken signed =>
    intro read
    have digits := eats_exponentDigits (digitValue c) more
    rw [taken] at digits
    exact (eats_sign signed).trans ((digits.cons (isNumeric_of_isDigit digit)).trans (eats_return read))
  | case5 => exact nofun

theorem eats_floatTail (read : floatTail negative n exponent cs = .ok (x, rest)) : Eats cs rest := by
  revert read
  fun_cases floatTail negative n exponent cs with
  | case1 => exact fun read => (eats_exponentPart read).cons (by decide)
  | case2 => exact fun read => (eats_exponentPart read).cons (by decide)
  | case3 => exact eats_return

theorem eats_fractionPart (read : fractionPart negative n exponent cs = .ok (x, rest)) : Eats cs rest := by
  have digits := eats_significand n cs
  revert read
  fun_cases fractionPart negative n exponent cs with
  | case1 m count after taken =>
    rw [taken] at digits
    exact fun read => digits.trans ((eats_dropWhile after).trans (eats_floatTail read))
  | case2 => exact nofun
  | case3 => exact nofun
  | case4 m count after taken =>
    rw [taken] at digits
    exact fun read => digits.trans (eats_floatTail read)

theorem eats_numberTail (read : numberTail negative n cs = .ok (x, rest)) : Eats cs rest := by
  revert read
  fun_cases numberTail negative n cs with
  | case1 => exact fun read => (eats_fractionPart read).cons (by decide)
  | case2 => exact fun read => (eats_exponentPart read).cons (by decide)
  | case3 => exact fun read => (eats_exponentPart read).cons (by decide)
  | case4 => exact eats_return

theorem eats_longNumber (read : longNumber negative n cs = .ok (x, rest)) : Eats cs rest := by
  have digits := eats_dropWhile cs
  revert read
  fun_cases longNumber negative n cs with
  | case1 _ after point =>
    rw [point] at digits
    exact fun read => digits.trans ((eats_fractionPart read).cons (by decide))
  | case2 => exact fun read => digits.trans (eats_floatTail read)

theorem eats_unsignedNumber (read : unsignedNumber negative cs = .ok (x, rest)) : Eats cs rest := by
  revert read
  fun_cases unsignedNumber negative cs with
  | case3 => exact fun read => (eats_numberTail read).cons (by decide)
  | case4 c more _ digit m count after taken =>
    have digits := eats_significand (digitValue c) more
    rw [taken] at digits
    exact fun read => (digits.trans (eats_longNumber read)).cons (isNumeric_of_isDigit digit)
  | case5 c more _ digit m count after taken =>
    have digits := eats_significand (digitValue c) more
    rw [taken] at digits
    exact fun read => (digits.trans (eats_numberTail read)).cons (isNumeric_of_isDigit digit)
  | _ => exact nofun

/-- A number is read from characters that numbers are written with, and from no others. -/
theorem eats_number (read : number cs = .ok (x, rest)) : Eats cs rest := by
  unfold number at read
  split at read
  · exact (eats_unsignedNumber read).cons (by decide)
  · exact eats_unsignedNumber read

end Eats

theorem IsUnsigned.isNumeric {cs : List Char} (unsigned : IsUnsigned cs) : ∀ c ∈ cs, isNumeric c = true := by
  obtain ⟨whole, fraction, exponent, rfl, isWhole, isFraction, isExponent⟩ := unsigned
  have digits {ds : List Char} (digits : IsDigits ds) : ∀ c ∈ ds, Json.isNumeric c = true := fun c among =>
    isNumeric_of_isDigit (digits.2 c among)
  intro c among
  rcases List.mem_append.1 among with here | among
  · exact digits isWhole.isDigits c here
  rcases List.mem_append.1 among with here | here
  · rcases isFraction with rfl | ⟨ds, rfl, later⟩
    · cases here
    · exact List.forall_mem_cons.2 ⟨by decide, digits later⟩ c here
  · rcases isExponent with rfl | ⟨sign, ds, rfl, signed, later⟩
    · cases here
    · refine List.forall_mem_cons.2 ⟨by decide, List.forall_mem_cons.2 ⟨?_, digits later⟩⟩ c here
      rcases signed with rfl | rfl <;> decide

theorem isNumeric_text (n : Number) : ∀ c ∈ n.text.toList, isNumeric c = true := by
  rcases isNumeral_text n with unsigned | ⟨magnitude, made, unsigned⟩
  · exact unsigned.isNumeric
  · rw [made]
    exact List.forall_mem_cons.2 ⟨by decide, unsigned.isNumeric⟩

end Json

end Replica

/-
# Reading the numbers that are written

Every number of a document is written as a literal that reads as a number again: integers as
themselves, binary64 numbers as one that may differ in the last place, but never as none. Only the
three largest magnitudes come near the overflow threshold, and these are computed.
-/

import Mathlib
import MenuPlan.Proofs.Json.Literal

namespace MenuPlan.Json

/- Powers are those of the core library, as in the definitions. -/
attribute [local instance (2000)] instPowNat

namespace Literal

/-- The digits of an integer. -/
def ofNat (n : Nat) : Literal where
  whole := decimalDigits n
  fraction := []
  exponent := none
  nonempty := decimalDigits_ne_nil n
  isWhole := fun _ member => isDigit_of_mem_decimalDigits member
  leading := by
    intro zero
    have isZero : n = 0 := by
      by_contra nonzero
      exact head?_decimalDigits_ne_zero (Nat.pos_of_ne_zero nonzero) zero
    rw [isZero]
    rfl
  isFraction := List.forall_mem_nil _

theorem intText_eq (value : Int) :
    Number.intText value = (ofNat value.natAbs).signed (decide (value < 0)) := by
  simp [Number.intText, signed, text, ofNat, fractionText, exponentText]

/-- Integers are read as themselves. -/
theorem number?_intText (value : Int) (inRange : InRange value) :
    number? (Number.intText value) = some (.int value inRange) := by
  have isDigits : (ofNat value.natAbs).whole.foldl (fun n c => n * 10 + Scaled.digitValue c) 0 =
      value.natAbs := by
    rw [Scaled.foldl_digitValue]
    exact ofDigitChars_decimalDigits value.natAbs
  have noNegativeZero : ¬ (decide (value < 0) = true ∧ value.natAbs = 0) := by
    rw [decide_eq_true_eq]
    omega
  have isValue : (if decide (value < 0) = true then -(value.natAbs : Int) else value.natAbs) =
      value := by
    simp only [decide_eq_true_eq]
    split_ifs
    · omega
    · omega
  rw [intText_eq, number?_signed, unsigned?_whole _ _ rfl rfl, wholeNumber?, isDigits,
    if_neg noNegativeZero, isValue, Number.ofInt?, dif_pos inRange]

/-- Positional notation: a fraction, no exponent, and a whole part that a reader takes in full. -/
structure Positional (l : Literal) : Prop where
  short : l.whole.length ≤ 19
  hasFraction : l.fraction ≠ []
  noExponent : l.exponent = none

theorem Positional.text_eq {l : Literal} (positional : l.Positional) :
    l.text = l.whole ++ '.' :: l.fraction := by
  obtain ⟨c, rest, isFraction⟩ := List.exists_cons_of_ne_nil positional.hasFraction
  rw [text, positional.noExponent, isFraction, fractionText, exponentText, List.append_nil]
  exact List.cons_ne_nil _ _

theorem isDigit_of_mem_zeros (count : Nat) : ∀ c ∈ List.replicate count '0', c.isDigit = true := by
  intro c member
  rw [List.eq_of_mem_replicate member]
  rfl

section Digits

variable {digits : List Char} (nonempty : digits ≠ [])
  (isDigits : ∀ c ∈ digits, c.isDigit = true)

include nonempty isDigits

/-- Digits with zeros appended, and a zero behind the point. -/
theorem exists_wholeDecimal {zeros : Nat}
    (leading : digits.head? = some '0' → zeros = 0 ∧ digits.length = 1)
    (short : digits.length + zeros ≤ 19) :
    ∃ l : Literal, l.text = digits ++ List.replicate zeros '0' ++ ['.', '0'] ∧ l.Positional ∧
      l.decimal.value = (Decimal.mk (Nat.ofDigitChars 10 digits 0) zeros).value := by
  refine ⟨⟨digits ++ List.replicate zeros '0', ['0'], none, ?_, ?_, ?_, ?_⟩, rfl, ?_, ?_⟩
  · exact List.append_ne_nil_of_left_ne_nil nonempty _
  · exact List.forall_mem_append.mpr ⟨isDigits, isDigit_of_mem_zeros zeros⟩
  · rw [List.head?_append_of_ne_nil _ nonempty, List.length_append, List.length_replicate]
    intro startsWithZero
    obtain ⟨noZeros, single⟩ := leading startsWithZero
    omega
  · exact isDigit_of_mem_zeros 1
  · constructor
    · rw [List.length_append, List.length_replicate]
      exact short
    · exact List.cons_ne_nil _ _
    · rfl
  · rw [decimal, Decimal.value, Decimal.value, List.append_assoc, ← List.replicate_succ',
      Nat.ofDigitChars_append, ofDigitChars_zeros]
    have power : (10 : ℚ) ^ ((zeros + 1 : Nat) : Int) * 10 ^ (-1 : Int) = 10 ^ (zeros : Int) := by
      rw [← zpow_add₀ (by norm_num)]
      congr 1
      omega
    rw [zpow_natCast] at power
    rw [Nat.cast_mul, Nat.cast_pow, mul_assoc]
    exact congrArg _ power

/-- Digits with a point between two of them. -/
theorem exists_pointInside {before : Nat} (leading : digits.head? ≠ some '0')
    (positive : 0 < before) (inside : before < digits.length) (short : before ≤ 19) :
    ∃ l : Literal, l.text = digits.take before ++ '.' :: digits.drop before ∧ l.Positional ∧
      l.decimal = ⟨Nat.ofDigitChars 10 digits 0, -((digits.length - before : Nat) : Int)⟩ := by
  have hasFraction : digits.drop before ≠ [] := by
    rw [Ne, List.drop_eq_nil_iff]
    omega
  have shortWhole : (digits.take before).length ≤ 19 := by
    rw [List.length_take]
    omega
  refine ⟨⟨digits.take before, digits.drop before, none, ?_, ?_, ?_, ?_⟩, ?_,
    ⟨shortWhole, hasFraction, rfl⟩, ?_⟩
  · rw [Ne, List.take_eq_nil_iff]
    rintro (none | empty)
    · omega
    · exact nonempty empty
  · intro c member
    exact isDigits c (List.mem_of_mem_take member)
  · rw [List.head?_take, if_neg (Nat.ne_of_gt positive)]
    intro startsWithZero
    exact absurd startsWithZero leading
  · intro c member
    exact isDigits c (List.mem_of_mem_drop member)
  · exact Positional.text_eq ⟨shortWhole, hasFraction, rfl⟩
  · rw [decimal, List.take_append_drop, List.length_drop, Option.getD_none, Int.zero_sub]

/-- A zero, a point, and the digits behind zeros. -/
theorem exists_smallDecimal (zeros : Nat) :
    ∃ l : Literal, l.text = '0' :: '.' :: (List.replicate zeros '0' ++ digits) ∧ l.Positional ∧
      l.decimal = ⟨Nat.ofDigitChars 10 digits 0, -((zeros + digits.length : Nat) : Int)⟩ := by
  have hasFraction : List.replicate zeros '0' ++ digits ≠ [] :=
    List.append_ne_nil_of_right_ne_nil _ nonempty
  have shortWhole : (['0'] : List Char).length ≤ 19 := by
    decide
  refine ⟨⟨['0'], List.replicate zeros '0' ++ digits, none, List.cons_ne_nil _ _,
    isDigit_of_mem_zeros 1, fun _ => rfl, ?_⟩, ?_, ⟨shortWhole, hasFraction, rfl⟩, ?_⟩
  · exact List.forall_mem_append.mpr ⟨isDigit_of_mem_zeros zeros, isDigits⟩
  · exact Positional.text_eq ⟨shortWhole, hasFraction, rfl⟩
  · rw [decimal, List.singleton_append, ← List.cons_append, ← List.replicate_succ,
      Nat.ofDigitChars_append, ofDigitChars_zeros, Nat.zero_mul, List.length_append,
      List.length_replicate, Option.getD_none, Int.zero_sub]

end Digits

/-- Positional notation is a literal, up to sixteen digits before the point, with the value of the
decimal. -/
theorem exists_positional {d : Decimal} (zero : d.digits = 0 → d.exponent = 0)
    (short : d.magnitude ≤ 15) :
    ∃ l : Literal, l.text = d.positional ∧ l.Positional ∧ l.decimal.value = d.value := by
  have nonempty := decimalDigits_ne_nil d.digits
  have isDigits : ∀ c ∈ decimalDigits d.digits, c.isDigit = true :=
    fun _ => isDigit_of_mem_decimalDigits
  have leading : (decimalDigits d.digits).head? = some '0' →
      d.exponent = 0 ∧ (decimalDigits d.digits).length = 1 := by
    intro startsWithZero
    have isZero : d.digits = 0 := by
      by_contra nonzero
      exact head?_decimalDigits_ne_zero (Nat.pos_of_ne_zero nonzero) startsWithZero
    refine ⟨zero isZero, ?_⟩
    rw [isZero]
    rfl
  have length : d.exponent + (decimalDigits d.digits).length ≤ 16 := by
    rw [Decimal.magnitude] at short
    omega
  have isNumber := ofDigitChars_decimalDigits d.digits
  unfold Decimal.positional
  generalize decimalDigits d.digits = digits at *
  dsimp only
  split_ifs with isWhole inside
  · have inOrder : digits.head? = some '0' → d.exponent.toNat = 0 ∧ digits.length = 1 := by
      intro startsWithZero
      obtain ⟨noPower, single⟩ := leading startsWithZero
      omega
    obtain ⟨l, isText, positional, isValue⟩ :=
      exists_wholeDecimal nonempty isDigits inOrder (by omega)
    rw [isNumber, Int.toNat_of_nonneg isWhole] at isValue
    exact ⟨l, isText, positional, isValue⟩
  · have inOrder : digits.head? ≠ some '0' := by
      intro startsWithZero
      obtain ⟨noPower, -⟩ := leading startsWithZero
      omega
    have somewhere : 0 < digits.length - (-d.exponent).toNat := by
      omega
    obtain ⟨l, isText, positional, isDecimal⟩ :=
      exists_pointInside nonempty isDigits inOrder somewhere (by omega) (by omega)
    have isExponent : -((digits.length - (digits.length - (-d.exponent).toNat) : Nat) : Int) =
        d.exponent := by
      omega
    rw [isNumber, isExponent] at isDecimal
    exact ⟨l, isText, positional, congrArg Decimal.value isDecimal⟩
  · obtain ⟨l, isText, positional, isDecimal⟩ :=
      exists_smallDecimal nonempty isDigits ((-d.exponent).toNat - digits.length)
    have isExponent : -(((-d.exponent).toNat - digits.length + digits.length : Nat) : Int) =
        d.exponent := by
      omega
    rw [isNumber, isExponent] at isDecimal
    exact ⟨l, isText, positional, congrArg Decimal.value isDecimal⟩

/-- Exponent notation: one digit before the point, the others after it, and the power of the
leading digit. -/
structure Scientific (l : Literal) (d : Decimal) : Prop where
  single : l.whole.length = 1
  digits : l.whole ++ l.fraction = decimalDigits d.digits
  hasExponent : l.exponent = some d.magnitude

/-- Exponent notation writes the decimal. -/
theorem Scientific.decimal_eq {l : Literal} {d : Decimal} (scientific : l.Scientific d) :
    l.decimal = d := by
  have length := congrArg List.length scientific.digits
  rw [List.length_append, scientific.single] at length
  have isExponent : d.magnitude - (l.fraction.length : Int) = d.exponent := by
    rw [Decimal.magnitude]
    omega
  rw [decimal, scientific.digits, ofDigitChars_decimalDigits, scientific.hasExponent,
    Option.getD_some, isExponent]

/-- Exponent notation is a literal. -/
theorem exists_scientific (d : Decimal) :
    ∃ l : Literal, l.text = d.scientific ∧ l.Scientific d := by
  obtain ⟨first, rest, isDigits⟩ := List.exists_cons_of_ne_nil (decimalDigits_ne_nil d.digits)
  have digits : ∀ c ∈ first :: rest, c.isDigit = true :=
    isDigits ▸ fun _ => isDigit_of_mem_decimalDigits
  obtain ⟨isFirst, isRest⟩ := List.forall_mem_cons.mp digits
  refine ⟨⟨[first], rest, some d.magnitude, List.cons_ne_nil _ _, ?_, fun _ => rfl, isRest⟩,
    ?_, rfl, isDigits.symm, rfl⟩
  · exact List.forall_mem_cons.mpr ⟨isFirst, List.forall_mem_nil _⟩
  · rw [Decimal.scientific, ← Decimal.magnitude, isDigits]
    cases rest with
    | nil => rfl
    | cons second rest => rfl

/-- What is read from part of the digits of a decimal is at most the decimal, so it is below the
ceiling if the upper end of the neighbourhood is. -/
theorem significand_le_ceiling {d : Decimal} {significand m shift left : Nat} {exponent : Int}
    (grid : d.digits * (10 ^ d.exponent.toNat * 2 ^ (1076 : Nat)) ≤
      (4 * m + 2) * (10 ^ (-d.exponent).toNat * 2 ^ shift))
    (belowTop : (4 * m + 2) * 2 ^ shift ≤ Binary64.ceiling * 2 ^ (1076 : Nat))
    (few : significand * 10 ^ left ≤ d.digits) (isExponent : exponent = d.exponent + left)
    (upwards : 0 ≤ exponent) :
    significand * 10 ^ exponent.toNat ≤ Binary64.ceiling := by
  have exponents : exponent.toNat + (-d.exponent).toNat = left + d.exponent.toNat := by
    omega
  have positive : 0 < 10 ^ (-d.exponent).toNat * 2 ^ (1076 : Nat) :=
    Nat.mul_pos (Nat.pow_pos (by decide)) (by decide +kernel)
  apply Nat.le_of_mul_le_mul_right _ positive
  generalize 2 ^ (1076 : Nat) = quarters at *
  calc
    significand * 10 ^ exponent.toNat * (10 ^ (-d.exponent).toNat * quarters)
        = significand * 10 ^ (exponent.toNat + (-d.exponent).toNat) * quarters := by
      rw [Nat.pow_add]
      ring
    _ = significand * 10 ^ left * (10 ^ d.exponent.toNat * quarters) := by
      rw [exponents, Nat.pow_add]
      ring
    _ ≤ d.digits * (10 ^ d.exponent.toNat * quarters) := Nat.mul_le_mul_right _ few
    _ ≤ (4 * m + 2) * (10 ^ (-d.exponent).toNat * 2 ^ shift) := grid
    _ = (4 * m + 2) * 2 ^ shift * 10 ^ (-d.exponent).toNat := by
      ring
    _ ≤ Binary64.ceiling * quarters * 10 ^ (-d.exponent).toNat := Nat.mul_le_mul_right _ belowTop
    _ = Binary64.ceiling * (10 ^ (-d.exponent).toNat * quarters) := by
      ring

/-- Without an exponent only the digits count, and they fit. -/
theorem Positional.unsigned?_isSome {l : Literal} (positional : l.Positional) (negative : Bool) :
    (unsigned? negative l.text).isSome := by
  obtain ⟨fits, taken, -, exponent, -⟩ :=
    Scaled.ofDigits_spec l.isWhole positional.short l.fraction
  have numeral : (l.scaled.toBinary64? negative).isSome := by
    apply l.scaled.toBinary64?_isSome negative fits
    intro upwards
    have noPower : l.scaled.exponent.toNat = 0 := by
      show ((Scaled.ofDigits l.whole l.fraction).exponent + l.exponent.getD 0).toNat = 0
      rw [exponent, positional.noExponent, Option.getD_none]
      omega
    have widest : 2 ^ (64 : Nat) ≤ Binary64.ceiling := by
      decide +kernel
    rw [noPower, Nat.pow_zero, Nat.mul_one]
    exact Nat.le_trans (Nat.le_of_lt fits) widest
  rw [unsigned?_text l negative (Or.inl positional.hasFraction), Option.isSome_map]
  exact numeral

/-- In exponent notation the digits that are taken stay below the ceiling, if the neighbourhood of
the number does. -/
theorem Scientific.unsigned?_isSome {l : Literal} {d : Decimal} {m shift : Nat}
    (scientific : l.Scientific d)
    (grid : d.digits * (10 ^ d.exponent.toNat * 2 ^ (1076 : Nat)) ≤
      (4 * m + 2) * (10 ^ (-d.exponent).toNat * 2 ^ shift))
    (belowTop : (4 * m + 2) * 2 ^ shift ≤ Binary64.ceiling * 2 ^ (1076 : Nat)) (negative : Bool) :
    (unsigned? negative l.text).isSome := by
  have short : l.whole.length ≤ 19 := by
    rw [scientific.single]
    decide
  obtain ⟨fits, taken, few, exponent, bounded⟩ := Scaled.ofDigits_spec l.isWhole short l.fraction
  rw [scientific.digits, ofDigitChars_decimalDigits] at bounded
  have isExponent : l.scaled.exponent =
      d.exponent + ((l.fraction.length - taken : Nat) : Int) := by
    have length := congrArg List.length scientific.digits
    rw [List.length_append, scientific.single] at length
    show (Scaled.ofDigits l.whole l.fraction).exponent + l.exponent.getD 0 = _
    rw [exponent, scientific.hasExponent, Option.getD_some, Decimal.magnitude]
    omega
  have more : l.fraction ≠ [] ∨ l.exponent.isSome = true := by
    rw [scientific.hasExponent]
    exact Or.inr rfl
  rw [unsigned?_text l negative more, Option.isSome_map]
  apply l.scaled.toBinary64?_isSome negative fits
  exact significand_le_ceiling grid belowTop bounded isExponent

/-- The three largest magnitudes are read. -/
theorem number?_top : ∀ negative : Bool, ∀ below < 3,
    (Binary64.ofParts negative (2 ^ (53 : Nat) - 1 - below) 2045).all
      (fun x => (number? x.text).isSome) = true := by
  decide +kernel

theorem number?_text_isSome_of_top {x : Binary64}
    (top : x.shift = 2045 ∧ 2 ^ (53 : Nat) - 4 < x.significand) : (number? x.text).isSome := by
  obtain ⟨isShift, isLarge⟩ := top
  have canonical := x.canonical
  have isTop := number?_top x.negative (2 ^ (53 : Nat) - 1 - x.significand) (by omega)
  have isSignificand : 2 ^ (53 : Nat) - 1 - (2 ^ (53 : Nat) - 1 - x.significand) =
      x.significand := by
    omega
  rw [isSignificand, ← isShift, Binary64.ofParts_eq_some x.negative canonical] at isTop
  exact isTop

/-- Every binary64 number is written as a literal that is read. The literal has the value of the
number's decimal, and it is not a whole number. -/
theorem exists_binary64 (x : Binary64) :
    ∃ l : Literal, x.text = l.signed x.negative ∧ l.decimal.value = x.shortest.value ∧
      (l.fraction = [] → l.exponent ≠ none) ∧ (number? x.text).isSome := by
  by_cases moderate : -5 ≤ x.shortest.magnitude ∧ x.shortest.magnitude ≤ 15
  · obtain ⟨l, isText, positional, isValue⟩ :=
      exists_positional Binary64.shortest_exponent_of_digits_eq_zero moderate.2
    have written : x.text = l.signed x.negative := by
      rw [Binary64.text, if_pos moderate, ← isText]
      rfl
    refine ⟨l, written, isValue, fun none => absurd none positional.hasFraction, ?_⟩
    rw [written, number?_signed]
    exact positional.unsigned?_isSome x.negative
  · obtain ⟨l, isText, scientific⟩ := exists_scientific x.shortest
    have written : x.text = l.signed x.negative := by
      rw [Binary64.text, if_neg moderate, ← isText]
      rfl
    have hasExponent : l.exponent ≠ none := by
      rw [scientific.hasExponent]
      exact Option.some_ne_none _
    refine ⟨l, written, congrArg Decimal.value scientific.decimal_eq, fun _ => hasExponent, ?_⟩
    -- Two roundings can cost up to two units, which the three largest magnitudes do not have.
    by_cases top : x.shift = 2045 ∧ 2 ^ (53 : Nat) - 4 < x.significand
    · exact number?_text_isSome_of_top top
    · rw [written, number?_signed]
      exact scientific.unsigned?_isSome x.shortest_le_upper (x.upper_le_ceiling top) x.negative

end Literal

/-- Every number is written as a literal that is read. -/
theorem exists_literal (n : Number) :
    ∃ (l : Literal) (negative : Bool), n.text = l.signed negative ∧ (number? n.text).isSome := by
  cases n with
  | int value inRange =>
      refine ⟨_, _, Literal.intText_eq value, ?_⟩
      rw [Number.text, Literal.number?_intText value inRange]
      rfl
  | real x =>
      obtain ⟨l, isText, -, -, isRead⟩ := Literal.exists_binary64 x
      exact ⟨l, x.negative, isText, isRead⟩

/-- The number that is read where a number has been written. -/
def rereadNumber (n : Number) : Number :=
  (number? n.text).getD n

/-- Integers are kept. -/
@[simp] theorem rereadNumber_int (value : Int) (inRange : InRange value) :
    rereadNumber (.int value inRange) = .int value inRange := by
  rw [rereadNumber, Number.text, Literal.number?_intText value inRange]
  rfl

/-- The word of a number is read as a number. -/
theorem scalar?_text (n : Number) : scalar? n.text = some (.number (rereadNumber n)) := by
  obtain ⟨l, negative, isText, isRead⟩ := exists_literal n
  obtain ⟨m, isNumber⟩ := Option.isSome_iff_exists.mp isRead
  rw [rereadNumber, isNumber]
  rw [isText] at isNumber ⊢
  rw [Literal.scalar?_signed, isNumber]
  rfl

/-- A number is written as one word. -/
theorem text_isWord (n : Number) :
    n.text ≠ [] ∧ ∀ c ∈ n.text, Token.isWordChar c = true := by
  obtain ⟨l, negative, isText, -⟩ := exists_literal n
  rw [isText]
  exact ⟨l.signed_ne_nil negative, l.isWordChar_of_mem_signed negative⟩

end MenuPlan.Json

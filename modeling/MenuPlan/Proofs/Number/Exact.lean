/-
# Exact conversions

Some quotients need no rounding. An integer of at most 53 bits is a binary64 number itself, and so
are the powers of ten up to `10 ^ 22`. A quotient is not changed by a common power of two, so that
the product and the quotient of two numbers that were converted exactly are rounded only once.
-/

import MenuPlan.Proofs.Number.Rounding

namespace MenuPlan

/- Powers are those of the core library, as in the definitions. -/
attribute [local instance (2000)] instPowNat

/-- A common factor does not change what a quotient is rounded to. -/
theorem roundHalfEven_mul (num : Nat) {den factor : Nat} (positive : 0 < factor) :
    roundHalfEven (num * factor) (den * factor) = roundHalfEven num den := by
  have quotient : num * factor / (den * factor) = num / den := Nat.mul_div_mul_right _ _ positive
  have remainder : 2 * (num * factor % (den * factor)) = 2 * (num % den) * factor := by
    rw [Nat.mul_mod_mul_right, Nat.mul_assoc]
  have above : 2 * (num % den) * factor > den * factor ↔ 2 * (num % den) > den :=
    Nat.mul_lt_mul_right positive
  have tie : 2 * (num % den) * factor = den * factor ↔ 2 * (num % den) = den :=
    Nat.mul_left_inj (Nat.pos_iff_ne_zero.mp positive)
  unfold roundHalfEven
  dsimp only
  rw [quotient, remainder]
  simp only [above, tie]

namespace Binary64

/-- A common factor does not change what is rounded at a place. -/
theorem roundAt_mul (negative : Bool) (num den shift : Nat) {factor : Nat}
    (positive : 0 < factor) :
    roundAt negative (num * factor) (den * factor) shift = roundAt negative num den shift := by
  have isScaled : roundHalfEven (num * factor * 2 ^ (1074 : Nat)) (den * factor * 2 ^ shift) =
      roundHalfEven (num * 2 ^ (1074 : Nat)) (den * 2 ^ shift) := by
    rw [Nat.mul_right_comm, Nat.mul_right_comm den, roundHalfEven_mul _ positive]
  rw [roundAt, roundAt, isScaled]

/-- A power of two only adds to the length of a number. -/
theorem log2_mul_pow {n : Nat} (nonzero : n ≠ 0) (power : Nat) :
    (n * 2 ^ power).log2 = n.log2 + power := by
  have positive : 0 < 2 ^ power := Nat.two_pow_pos power
  rw [Nat.log2_eq_iff (Nat.mul_ne_zero nonzero (Nat.pos_iff_ne_zero.mp positive))]
  constructor
  · rw [Nat.pow_add]
    exact Nat.mul_le_mul_right _ (Nat.log2_self_le nonzero)
  · rw [Nat.add_right_comm, Nat.pow_add]
    exact Nat.mul_lt_mul_of_pos_right Nat.lt_log2_self positive

/-- A common power of two does not change a quotient. -/
theorem ofRatio_mul_pow (negative : Bool) (num : Nat) {den : Nat} (nonzero : den ≠ 0)
    (power : Nat) :
    ofRatio negative (num * 2 ^ power) (den * 2 ^ power) = ofRatio negative num den := by
  have positive : 0 < 2 ^ power := Nat.two_pow_pos power
  by_cases isZero : num = 0
  · rw [isZero, Nat.zero_mul, ofRatio, ofRatio, if_pos rfl, if_pos rfl]
  · have isStillNonzero : num * 2 ^ power ≠ 0 :=
      Nat.mul_ne_zero isZero (Nat.pos_iff_ne_zero.mp positive)
    have sameShift : num.log2 + power + 1021 - (den.log2 + power) =
        num.log2 + 1021 - den.log2 := by
      omega
    have sameSide : ∀ shift : Nat,
        num * 2 ^ power * 2 ^ (1074 : Nat) < den * 2 ^ power * 2 ^ shift * 2 ^ (53 : Nat) ↔
          num * 2 ^ (1074 : Nat) < den * 2 ^ shift * 2 ^ (53 : Nat) := by
      intro shift
      rw [Nat.mul_right_comm num, Nat.mul_right_comm den, Nat.mul_right_comm (den * 2 ^ shift)]
      exact Nat.mul_lt_mul_right positive
    rw [ofRatio, ofRatio, log2_mul_pow isZero, log2_mul_pow nonzero]
    rw [sameShift, if_neg isStillNonzero, if_neg isZero, roundAt_mul _ _ _ _ positive,
      roundAt_mul _ _ _ _ positive]
    simp only [sameSide]

/-- What is divided without a remainder is not rounded. -/
theorem roundHalfEven_mul_self (n : Nat) {den : Nat} (positive : 0 < den) :
    roundHalfEven (n * den) den = n := by
  unfold roundHalfEven
  dsimp only
  rw [Nat.mul_div_cancel n positive, Nat.mul_mod_left]
  rw [if_neg (Nat.not_lt_zero den), if_neg]
  rintro ⟨isZero, -⟩
  exact absurd isZero.symm (Nat.pos_iff_ne_zero.mp positive)

/-- A multiple of a power of two is divided by it. -/
theorem ofRatio_pow (negative : Bool) (num power : Nat) :
    ofRatio negative (num * 2 ^ power) (2 ^ power) = ofRatio negative num 1 := by
  have isReduced := ofRatio_mul_pow negative num Nat.one_ne_zero power
  rwa [Nat.one_mul] at isReduced

/-- Powers of two are multiplied by adding the exponents. -/
theorem two_pow_mul {first second sum : Nat} (isSum : first + second = sum) :
    2 ^ first * 2 ^ second = 2 ^ sum := by
  rw [← isSum, Nat.pow_add]

/-- A number is divided by a power of two without a remainder when it ends with as many zeros. -/
theorem roundHalfEven_pow (n : Nat) {free low top : Nat} (isSum : free + low = top) :
    roundHalfEven (n * 2 ^ top) (1 * 2 ^ low) = n * 2 ^ free := by
  rw [← two_pow_mul isSum, ← Nat.mul_assoc, Nat.one_mul]
  exact roundHalfEven_mul_self _ (Nat.two_pow_pos low)

/-- An integer of at most 53 bits is a number. -/
theorem ofRatio_one_exact (negative : Bool) {n : Nat} (small : n < 2 ^ (53 : Nat)) :
    ∃ x, ofRatio negative n 1 = some x ∧ x.negative = negative ∧
      x.scaledMagnitude = n * unity ∧ (x.isZero = true ↔ n = 0) := by
  by_cases isZero : n = 0
  · subst isZero
    refine ⟨zero negative, ?_, rfl, (Nat.zero_mul unity).symm, by simp [isZero, zero]⟩
    rw [ofRatio, if_pos rfl]
  · -- The number is shifted up to 53 bits, and its unit down as much.
    have short : n.log2 ≤ 52 := Nat.le_of_lt_succ ((Nat.log2_lt isZero).mpr small)
    obtain ⟨free, isFree⟩ := Nat.exists_eq_add_of_le short
    have positive : ∀ power : Nat, 0 < 2 ^ power := Nat.two_pow_pos
    have isUnit : n.log2 + 1021 - Nat.log2 1 = n.log2 + 1021 := by
      rw [show Nat.log2 1 = 0 from by decide, Nat.sub_zero]
    have isLong : ¬ n * 2 ^ (1074 : Nat) < 1 * 2 ^ (n.log2 + 1021) * 2 ^ (53 : Nat) := by
      have isBound : 2 ^ (n.log2 + 1021) * 2 ^ (53 : Nat) = 2 ^ (n.log2 + 1074) :=
        two_pow_mul (by omega)
      have isLeast : 2 ^ n.log2 * 2 ^ (1074 : Nat) = 2 ^ (n.log2 + 1074) :=
        (Nat.pow_add 2 n.log2 1074).symm
      rw [Nat.one_mul, isBound, ← isLeast, Nat.not_lt]
      exact Nat.mul_le_mul (Nat.log2_self_le isZero) Nat.le.refl
    have isRounded : roundHalfEven (n * 2 ^ (1074 : Nat)) (1 * 2 ^ (n.log2 + 1021 + 1)) =
        n * 2 ^ free := by
      have isSum : free + (n.log2 + 1021 + 1) = 1074 := by omega
      rw [roundHalfEven_pow n isSum]
    have canonical : n * 2 ^ free < 2 ^ (53 : Nat) ∧ n.log2 + 1021 + 1 ≤ 2045 ∧
        (n.log2 + 1021 + 1 = 0 ∨ 2 ^ (52 : Nat) ≤ n * 2 ^ free) := by
      refine ⟨?_, by omega, .inr ?_⟩
      · have isTop : 2 ^ (n.log2 + 1) * 2 ^ free = 2 ^ (53 : Nat) := two_pow_mul (by omega)
        rw [← isTop]
        exact Nat.mul_lt_mul_of_pos_right Nat.lt_log2_self (positive free)
      · have isLow : 2 ^ n.log2 * 2 ^ free = 2 ^ (52 : Nat) := two_pow_mul isFree.symm
        rw [← isLow]
        exact Nat.mul_le_mul_right _ (Nat.log2_self_le isZero)
    refine ⟨⟨negative, n * 2 ^ free, _, canonical⟩, ?_, rfl, ?_, ?_⟩
    · rw [ofRatio, isUnit, if_neg isZero, if_neg isLong, roundAt, isRounded,
        if_neg (Nat.ne_of_lt canonical.1), ofParts_eq_some _ canonical]
    · have isSum : free + (n.log2 + 1021 + 1) = 1074 := by omega
      rw [scaledMagnitude, Nat.mul_assoc, two_pow_mul isSum, unity]
    · have nonzero : n * 2 ^ free ≠ 0 :=
        Nat.mul_ne_zero isZero (Nat.pos_iff_ne_zero.mp (positive free))
      simp [Binary64.isZero, nonzero, isZero]

/-- The small powers of ten are numbers. -/
theorem ofDecimal_power_exact : ∀ power ≤ 22,
    ∃ x, ofDecimal false 1 (power : Nat) = some x ∧ x.scaledMagnitude = 10 ^ power * unity := by
  have each : ∀ power ≤ 22, (ofDecimal false 1 (power : Nat)).map scaledMagnitude =
      some (10 ^ power * unity) := by
    decide +kernel
  intro power small
  exact Option.map_eq_some_iff.mp (each power small)

/-- The product of two integers is rounded once. -/
theorem scaleUp_exact {x factor : Binary64} {m n : Nat} (isFirst : x.scaledMagnitude = m * unity)
    (isSecond : factor.scaledMagnitude = n * unity) :
    x.scaleUp factor = ofRatio x.negative (m * n) 1 := by
  have isSquare : unity * unity = 2 ^ (2148 : Nat) := by
    decide +kernel
  rw [scaleUp, isFirst, isSecond, Nat.mul_mul_mul_comm, isSquare,
    ofRatio_pow x.negative (m * n) 2148]

/-- So is the quotient. -/
theorem scaleDown_exact {x divisor : Binary64} {m n : Nat}
    (isFirst : x.scaledMagnitude = m * unity) (isSecond : divisor.scaledMagnitude = n * unity)
    (nonzero : n ≠ 0) : x.scaleDown divisor = ofRatio x.negative m n := by
  rw [scaleDown, isFirst, isSecond, unity]
  exact ofRatio_mul_pow _ _ nonzero 1074

/-- A decimal with a small power of ten is one quotient. -/
theorem ofDecimal_near (negative : Bool) {digits : Nat} {exponent : Int}
    (near : exponent.natAbs ≤ 22) :
    ofDecimal negative digits exponent =
      if 0 ≤ exponent then ofRatio negative (digits * 10 ^ exponent.natAbs) 1
      else ofRatio negative digits (10 ^ exponent.natAbs) := by
  by_cases isZero : digits = 0
  · rw [isZero, ofDecimal, if_pos rfl, Nat.zero_mul, ofRatio, ofRatio, if_pos rfl, if_pos rfl,
      ite_self]
  · have noOverflow : ¬ exponent ≥ 310 := by omega
    have noUnderflow : ¬ (digits.log2 : Int) + 3 * exponent < -1200 := by omega
    rw [ofDecimal, if_neg isZero]
    dsimp only
    rw [if_neg noOverflow, if_neg noUnderflow]
    split_ifs with upwards
    · rw [show exponent.toNat = exponent.natAbs by omega]
    · rw [show (-exponent).toNat = exponent.natAbs by omega]

end Binary64

end MenuPlan

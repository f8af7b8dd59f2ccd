/-
# Rounding quotients to binary64

A quotient below the overflow threshold has a nearest number, and that number is within half a unit
of the quotient; the unit is no more than the quotient divided by `2 ^ 52`, or it is the smallest
unit there is. Magnitudes are compared in multiples of `2 ^ (-1074)`, so everything here is about
natural numbers.
-/

import Mathlib
import MenuPlan.Number.Binary64

namespace MenuPlan

/- Powers are those of the core library, as in the definitions. -/
attribute [local instance (2000)] instPowNat

/-- Rounding misses a quotient by at most a half. -/
theorem roundHalfEven_spec (num : Nat) {den : Nat} (positive : 0 < den) :
    2 * (roundHalfEven num den * den) ≤ 2 * num + den ∧
      2 * num ≤ 2 * (roundHalfEven num den * den) + den := by
  have division := Nat.div_add_mod' num den
  have remainder := Nat.mod_lt num positive
  unfold roundHalfEven
  dsimp only
  split_ifs with above tie
  · rw [Nat.add_mul, Nat.one_mul]
    omega
  · rw [Nat.add_mul, Nat.one_mul]
    omega
  · omega

namespace Binary64

/-- The magnitude of one, in multiples of `2 ^ (-1074)`. -/
def unity : Nat := 2 ^ (1074 : Nat)

theorem unity_pos : 0 < unity := by
  decide +kernel

/-- The shift of half the largest unit. -/
def halfTop : Nat := 2044

/-- The least magnitude that rounds beyond the largest number, in multiples of `2 ^ (-1074)`. -/
def overflow : Nat := (2 ^ (54 : Nat) - 1) * 2 ^ halfTop

/-- The number `y` is nearest to `num / den` up to half of a unit `2 ^ step`. -/
structure Nearest (num den : Nat) (y : Binary64) (step : Nat) : Prop where
  above : 2 * (y.scaledMagnitude * den) ≤ 2 * (num * unity) + den * 2 ^ step
  below : 2 * (num * unity) ≤ 2 * (y.scaledMagnitude * den) + den * 2 ^ step
  fine : step = 0 ∨ den * 2 ^ step * 2 ^ (52 : Nat) ≤ num * unity

/-- Parts within the limits are those of a number. -/
theorem ofParts_eq_some (negative : Bool) {significand shift : Nat}
    (canonical : significand < 2 ^ (53 : Nat) ∧ shift ≤ 2045 ∧
      (shift = 0 ∨ 2 ^ (52 : Nat) ≤ significand)) :
    ofParts negative significand shift = some ⟨negative, significand, shift, canonical⟩ :=
  dif_pos canonical

/-- A smaller unit has a smaller shift. -/
theorem shift_lt_of_unit_lt {den shift limit : Nat} (smaller : den * 2 ^ shift < den * 2 ^ limit) :
    shift < limit :=
  (Nat.pow_lt_pow_iff_right (by decide)).mp (Nat.lt_of_mul_lt_mul_left smaller)

section AtStep

variable {num den shift rounded : Nat} {y : Binary64}

/-- Under a step with at most 53 bits before the point the rounded quotient has no more, or is the
least number with 54. -/
theorem rounded_le (above : 2 * (rounded * (den * 2 ^ shift)) ≤ 2 * (num * unity) + den * 2 ^ shift)
    (small : num * unity < den * 2 ^ shift * 2 ^ (53 : Nat)) : rounded ≤ 2 ^ (53 : Nat) := by
  by_contra tooLarge
  have large := Nat.mul_le_mul_right (den * 2 ^ shift) (Nat.lt_of_not_le tooLarge)
  omega

/-- Under a step with 53 bits before the point the rounded quotient has no fewer. -/
theorem le_rounded (positive : 0 < den)
    (below : 2 * (num * unity) ≤ 2 * (rounded * (den * 2 ^ shift)) + den * 2 ^ shift)
    (fine : den * 2 ^ shift * 2 ^ (52 : Nat) ≤ num * unity) : 2 ^ (52 : Nat) ≤ rounded := by
  have unit : 0 < den * 2 ^ shift := Nat.mul_pos positive (Nat.two_pow_pos shift)
  by_contra tooSmall
  have small := Nat.mul_le_mul_right (den * 2 ^ shift) (Nat.lt_of_not_le tooSmall)
  rw [Nat.succ_mul] at small
  omega

/-- Below the overflow threshold the step is one of a finite number. -/
theorem shift_le_of_finite (finite : num * unity < den * overflow)
    (fine : shift = 0 ∨ den * 2 ^ shift * 2 ^ (52 : Nat) ≤ num * unity) : shift ≤ 2045 := by
  rcases fine with smallest | fine
  · omega
  · have powers : den * (2 ^ shift * 2 ^ (52 : Nat)) < den * (2 ^ (54 : Nat) * 2 ^ halfTop) := by
      calc
        den * (2 ^ shift * 2 ^ (52 : Nat)) = den * 2 ^ shift * 2 ^ (52 : Nat) :=
          (Nat.mul_assoc _ _ _).symm
        _ ≤ num * unity := fine
        _ < den * overflow := finite
        _ ≤ den * (2 ^ (54 : Nat) * 2 ^ halfTop) :=
          Nat.mul_le_mul_left _ (Nat.mul_le_mul_right _ (Nat.sub_le _ _))
    rw [← Nat.pow_add, ← Nat.pow_add] at powers
    have exponents := shift_lt_of_unit_lt powers
    simp only [halfTop] at exponents
    omega

/-- Below the overflow threshold a significand that is rounded up to 54 bits finds a next step. -/
theorem shift_lt_of_carry (finite : num * unity < den * overflow)
    (above : 2 * (2 ^ (53 : Nat) * (den * 2 ^ shift)) ≤ 2 * (num * unity) + den * 2 ^ shift) :
    shift < 2045 := by
  have powers : den * 2 ^ shift < den * 2 ^ halfTop * 2 := by
    rw [overflow, Nat.mul_left_comm] at finite
    omega
  rw [Nat.mul_assoc, ← Nat.pow_succ] at powers
  have exponents := shift_lt_of_unit_lt powers
  simp only [halfTop] at exponents
  omega

/-- A number with the magnitude of the rounded quotient is nearest to the quotient. -/
theorem nearest_of_rounded (magnitude : y.scaledMagnitude * den = rounded * (den * 2 ^ shift))
    (above : 2 * (rounded * (den * 2 ^ shift)) ≤ 2 * (num * unity) + den * 2 ^ shift)
    (below : 2 * (num * unity) ≤ 2 * (rounded * (den * 2 ^ shift)) + den * 2 ^ shift)
    (fine : shift = 0 ∨ den * 2 ^ shift * 2 ^ (52 : Nat) ≤ num * unity) :
    Nearest num den y shift := by
  constructor
  · rw [magnitude]
    exact above
  · rw [magnitude]
    exact below
  · exact fine

/-- Rounding at a step under which the quotient has at most 53 bits before the point, and no fewer
unless the step is the smallest. -/
theorem roundAt_nearest (negative : Bool) (positive : 0 < den)
    (finite : num * unity < den * overflow)
    (small : num * unity < den * 2 ^ shift * 2 ^ (53 : Nat))
    (fine : shift = 0 ∨ den * 2 ^ shift * 2 ^ (52 : Nat) ≤ num * unity) :
    ∃ y, roundAt negative num den shift = some y ∧ Nearest num den y shift := by
  have unit : 0 < den * 2 ^ shift := Nat.mul_pos positive (Nat.two_pow_pos shift)
  obtain ⟨above, below⟩ := roundHalfEven_spec (num * unity) unit
  generalize isRounded : roundHalfEven (num * unity) (den * 2 ^ shift) = rounded at above below
  rw [roundAt, ← unity, isRounded]
  show ∃ y, (if rounded = 2 ^ (53 : Nat) then ofParts negative (2 ^ (52 : Nat)) (shift + 1)
    else ofParts negative rounded shift) = some y ∧ _
  by_cases carry : rounded = 2 ^ (53 : Nat)
  · have shiftLt : shift < 2045 := by
      rw [carry] at above
      exact shift_lt_of_carry finite above
    rw [if_pos carry, ofParts_eq_some negative ⟨by decide, shiftLt, Or.inr (Nat.le_refl _)⟩]
    refine ⟨_, rfl, nearest_of_rounded ?_ above below fine⟩
    show 2 ^ (52 : Nat) * 2 ^ (shift + 1) * den = rounded * (den * 2 ^ shift)
    rw [carry, Nat.pow_succ]
    ring
  · have bits : rounded < 2 ^ (53 : Nat) := Nat.lt_of_le_of_ne (rounded_le above small) carry
    have normal : shift = 0 ∨ 2 ^ (52 : Nat) ≤ rounded :=
      fine.imp id (le_rounded positive below)
    rw [if_neg carry, ofParts_eq_some negative ⟨bits, shift_le_of_finite finite fine, normal⟩]
    refine ⟨_, rfl, nearest_of_rounded ?_ above below fine⟩
    show rounded * 2 ^ shift * den = rounded * (den * 2 ^ shift)
    ring

end AtStep

/-- Bit lengths find the step, or the one below it. -/
theorem ofRatio_nearest (negative : Bool) {num den : Nat} (positive : 0 < den)
    (finite : num * unity < den * overflow) :
    ∃ y step, ofRatio negative num den = some y ∧ Nearest num den y step := by
  by_cases zeroNum : num = 0
  · subst zeroNum
    refine ⟨zero negative, 0, by rw [ofRatio, if_pos rfl], ?_, ?_, Or.inl rfl⟩
    · simp [scaledMagnitude, zero]
    · simp [scaledMagnitude, zero]
  · have numLow := Nat.log2_self_le zeroNum
    have numHigh := Nat.lt_log2_self (n := num)
    have denLow := Nat.log2_self_le (Nat.ne_of_gt positive)
    have denHigh := Nat.lt_log2_self (n := den)
    generalize isShift : num.log2 + 1021 - den.log2 = shift
    have result : ofRatio negative num den =
        if num * unity < den * 2 ^ shift * 2 ^ (53 : Nat) then roundAt negative num den shift
        else roundAt negative num den (shift + 1) := by
      rw [ofRatio, if_neg zeroNum, isShift, unity]
    by_cases small : num * unity < den * 2 ^ shift * 2 ^ (53 : Nat)
    · have fine : shift = 0 ∨ den * 2 ^ shift * 2 ^ (52 : Nat) ≤ num * unity := by
        by_cases smallest : shift = 0
        · exact Or.inl smallest
        · right
          have exponents : den.log2 + 1 + shift + 52 = num.log2 + 1074 := by
            omega
          calc
            den * 2 ^ shift * 2 ^ (52 : Nat)
                ≤ 2 ^ (den.log2 + 1) * 2 ^ shift * 2 ^ (52 : Nat) :=
              Nat.mul_le_mul_right _ (Nat.mul_le_mul_right _ (Nat.le_of_lt denHigh))
            _ = 2 ^ (num.log2 + 1074) := by
              rw [← Nat.pow_add, ← Nat.pow_add, exponents]
            _ = 2 ^ num.log2 * unity := by
              rw [Nat.pow_add, unity]
            _ ≤ num * unity := Nat.mul_le_mul_right _ numLow
      obtain ⟨y, isRounded, nearest⟩ := roundAt_nearest negative positive finite small fine
      exact ⟨y, shift, by rw [result, if_pos small, isRounded], nearest⟩
    · have next : num * unity < den * 2 ^ (shift + 1) * 2 ^ (53 : Nat) := by
        have exponents : num.log2 + 1 + 1074 ≤ den.log2 + (shift + 1) + 53 := by
          omega
        calc
          num * unity < 2 ^ (num.log2 + 1) * unity :=
            Nat.mul_lt_mul_of_pos_right numHigh unity_pos
          _ = 2 ^ (num.log2 + 1 + 1074) := by
            rw [Nat.pow_add 2 (num.log2 + 1) 1074, unity]
          _ ≤ 2 ^ (den.log2 + (shift + 1) + 53) := Nat.pow_le_pow_right (by decide) exponents
          _ = 2 ^ den.log2 * 2 ^ (shift + 1) * 2 ^ (53 : Nat) := by
            rw [Nat.pow_add, Nat.pow_add]
          _ ≤ den * 2 ^ (shift + 1) * 2 ^ (53 : Nat) :=
            Nat.mul_le_mul_right _ (Nat.mul_le_mul_right _ denLow)
      have fine : den * 2 ^ (shift + 1) * 2 ^ (52 : Nat) ≤ num * unity := by
        calc
          den * 2 ^ (shift + 1) * 2 ^ (52 : Nat) = den * 2 ^ shift * 2 ^ (53 : Nat) := by
            rw [Nat.pow_succ]
            ring
          _ ≤ num * unity := Nat.le_of_not_lt small
      obtain ⟨y, isRounded, nearest⟩ :=
        roundAt_nearest negative positive finite next (Or.inr fine)
      exact ⟨y, shift + 1, by rw [result, if_neg small, isRounded], nearest⟩

-- A tenth is no binary fraction; this is the number next to it.
example : (ofRatio false 1 10).map (fun x => (x.significand, x.shift)) =
    some (7205759403792794, 1018) := by
  decide +kernel

/-! ## Relative error -/

namespace Nearest

variable {num den step : Nat} {y : Binary64}

/-- The error is at most the unit above the quotient. -/
theorem le_two_mul (nearest : Nearest num den y step) :
    y.scaledMagnitude * den ≤ 2 * (num * unity) + den := by
  have above := nearest.above
  rcases nearest.fine with smallest | fine
  · rw [smallest, Nat.pow_zero] at above
    omega
  · omega

/-- From one upwards the smallest unit is no exception. -/
theorem fine_of_den_le (nearest : Nearest num den y step) (atLeastOne : den ≤ num) :
    den * 2 ^ step * 2 ^ (52 : Nat) ≤ num * unity := by
  rcases nearest.fine with smallest | fine
  · have small : 2 ^ (52 : Nat) ≤ unity := by
      decide +kernel
    rw [smallest, Nat.pow_zero, Nat.mul_one]
    exact Nat.mul_le_mul atLeastOne small
  · exact fine

theorem above_of_den_le (nearest : Nearest num den y step) (atLeastOne : den ≤ num) :
    2 ^ (53 : Nat) * (y.scaledMagnitude * den) ≤ (2 ^ (53 : Nat) + 1) * (num * unity) := by
  have above := nearest.above
  have fine := nearest.fine_of_den_le atLeastOne
  omega

theorem below_of_den_le (nearest : Nearest num den y step) (atLeastOne : den ≤ num) :
    num * unity ≤ 2 * (y.scaledMagnitude * den) := by
  have below := nearest.below
  have fine := nearest.fine_of_den_le atLeastOne
  omega

end Nearest

/-- A positive integer below the overflow threshold has a nearest number, within a half of its last
bit. -/
theorem ofRatio_one (negative : Bool) {n : Nat} (positive : 0 < n) (finite : n * unity < overflow) :
    ∃ x, ofRatio negative n 1 = some x ∧
      2 ^ (53 : Nat) * x.scaledMagnitude ≤ (2 ^ (53 : Nat) + 1) * (n * unity) ∧
      n * unity ≤ 2 * x.scaledMagnitude := by
  rw [← Nat.one_mul overflow] at finite
  obtain ⟨x, step, isNearest, nearest⟩ := ofRatio_nearest negative Nat.one_pos finite
  have above := nearest.above_of_den_le positive
  have below := nearest.below_of_den_le positive
  rw [Nat.mul_one] at above below
  exact ⟨x, isNearest, above, below⟩

/-- The powers of ten that a reader scales by. -/
theorem ofDecimal_power {power : Nat} (small : power ≤ 308) :
    ∃ x, ofDecimal false 1 power = some x ∧
      2 ^ (53 : Nat) * x.scaledMagnitude ≤ (2 ^ (53 : Nat) + 1) * (10 ^ power * unity) ∧
      10 ^ power * unity ≤ 2 * x.scaledMagnitude := by
  have largest : 10 ^ (308 : Nat) * unity < overflow := by
    decide +kernel
  have finite : 10 ^ power * unity < overflow :=
    Nat.lt_of_le_of_lt (Nat.mul_le_mul_right _ (Nat.pow_le_pow_right (by decide) small)) largest
  have asRatio : ofDecimal false 1 power = ofRatio false (10 ^ power) 1 := by
    have noLimit : ¬ ((power : Int) ≥ 310) := by
      omega
    have noUnderflow : ¬ (((1 : Nat).log2 : Int) + 3 * (power : Int) < -1200) := by
      omega
    have upwards : (0 : Int) ≤ power := Int.natCast_nonneg power
    rw [ofDecimal, if_neg Nat.one_ne_zero]
    dsimp only
    rw [if_neg noLimit, if_neg noUnderflow, if_pos upwards, Int.toNat_natCast, Nat.one_mul]
  rw [asRatio]
  exact ofRatio_one false (Nat.pow_pos (by decide)) finite

/-- Dividing by a number from about one upwards succeeds, and does not lead far up. -/
theorem scaleDown_bounded {x divisor : Binary64} (large : unity ≤ 2 * divisor.scaledMagnitude)
    (finite : 2 * x.scaledMagnitude < overflow) :
    ∃ y, x.scaleDown divisor = some y ∧ y.scaledMagnitude ≤ 4 * x.scaledMagnitude + 1 := by
  have one := unity_pos
  have positive : 0 < divisor.scaledMagnitude := by
    omega
  have halves := Nat.mul_le_mul_left x.scaledMagnitude large
  have quotient : x.scaledMagnitude * unity < divisor.scaledMagnitude * overflow := by
    have limit := Nat.mul_lt_mul_of_pos_left finite positive
    calc
      x.scaledMagnitude * unity ≤ x.scaledMagnitude * (2 * divisor.scaledMagnitude) := halves
      _ = divisor.scaledMagnitude * (2 * x.scaledMagnitude) := by
        ring
      _ < divisor.scaledMagnitude * overflow := limit
  obtain ⟨y, step, isNearest, nearest⟩ := ofRatio_nearest x.negative positive quotient
  refine ⟨y, isNearest, Nat.le_of_mul_le_mul_right ?_ positive⟩
  calc
    y.scaledMagnitude * divisor.scaledMagnitude
        ≤ 2 * (x.scaledMagnitude * unity) + divisor.scaledMagnitude := nearest.le_two_mul
    _ ≤ 2 * (x.scaledMagnitude * (2 * divisor.scaledMagnitude)) + divisor.scaledMagnitude :=
      Nat.add_le_add_right (Nat.mul_le_mul_left 2 halves) _
    _ = (4 * x.scaledMagnitude + 1) * divisor.scaledMagnitude := by
      ring

/-- What the exact product of two integers may be so that rounding both and their product stays
below the overflow threshold, which is three units of the largest number higher. -/
def ceiling : Nat := (2 ^ (54 : Nat) - 7) * 2 ^ (970 : Nat)

/-- The ceiling is below `10 ^ 309`. -/
theorem ceiling_lt_pow {power : Nat} (large : 309 ≤ power) : ceiling < 10 ^ power := by
  induction power, large using Nat.le_induction with
  | base => decide +kernel
  | succ power large ih =>
      exact Nat.lt_of_lt_of_le ih (Nat.pow_le_pow_right (by decide) (Nat.le_succ power))

/-- Rounding to 53 bits less than doubles. -/
theorem le_two_mul_of_rounded {m n : Nat}
    (rounded : 2 ^ (53 : Nat) * m ≤ (2 ^ (53 : Nat) + 1) * n) : m ≤ 2 * n := by
  omega

/-- The neighbourhood of all but the three largest magnitudes ends below the ceiling. -/
theorem upper_le_ceiling (x : Binary64)
    (notTop : ¬ (x.shift = 2045 ∧ 2 ^ (53 : Nat) - 4 < x.significand)) :
    (4 * x.significand + 2) * 2 ^ x.shift ≤ ceiling * 2 ^ (1076 : Nat) := by
  have monotone : ∀ significand shift limit, x.significand ≤ significand → x.shift ≤ shift →
      (4 * significand + 2) * 2 ^ shift ≤ limit →
        (4 * x.significand + 2) * 2 ^ x.shift ≤ limit := by
    intro significand shift limit smaller lower bounded
    have factor : 4 * x.significand + 2 ≤ 4 * significand + 2 := by
      omega
    exact Nat.le_trans (Nat.mul_le_mul factor (Nat.pow_le_pow_right (by decide) lower)) bounded
  obtain ⟨bits, shiftLe, -⟩ := x.canonical
  by_cases topShift : x.shift = 2045
  · have small : x.significand ≤ 2 ^ (53 : Nat) - 4 := by
      omega
    exact monotone _ 2045 _ small shiftLe (by decide +kernel)
  · have small : x.significand ≤ 2 ^ (53 : Nat) - 1 := by
      omega
    exact monotone _ 2044 _ small (by omega) (by decide +kernel)

/-- Multiplying two rounded integers succeeds up to the ceiling. -/
theorem scaleUp_isSome {x factor : Binary64} {m n : Nat}
    (roundedM : 2 ^ (53 : Nat) * x.scaledMagnitude ≤ (2 ^ (53 : Nat) + 1) * (m * unity))
    (roundedN : 2 ^ (53 : Nat) * factor.scaledMagnitude ≤ (2 ^ (53 : Nat) + 1) * (n * unity))
    (bounded : m * n ≤ ceiling) :
    (x.scaleUp factor).isSome := by
  have rounding : (2 ^ (53 : Nat) + 1) ^ (2 : Nat) * ceiling * unity <
      (2 ^ (53 : Nat)) ^ (2 : Nat) * overflow := by
    decide +kernel
  have product : (2 ^ (53 : Nat)) ^ (2 : Nat) * (x.scaledMagnitude * factor.scaledMagnitude) <
      (2 ^ (53 : Nat)) ^ (2 : Nat) * (overflow * unity) := by
    calc
      (2 ^ (53 : Nat)) ^ (2 : Nat) * (x.scaledMagnitude * factor.scaledMagnitude)
          = 2 ^ (53 : Nat) * x.scaledMagnitude * (2 ^ (53 : Nat) * factor.scaledMagnitude) := by
        ring
      _ ≤ (2 ^ (53 : Nat) + 1) * (m * unity) * ((2 ^ (53 : Nat) + 1) * (n * unity)) :=
        Nat.mul_le_mul roundedM roundedN
      _ = (2 ^ (53 : Nat) + 1) ^ (2 : Nat) * (m * n) * unity * unity := by
        ring
      _ ≤ (2 ^ (53 : Nat) + 1) ^ (2 : Nat) * ceiling * unity * unity :=
        Nat.mul_le_mul_right _ (Nat.mul_le_mul_right _ (Nat.mul_le_mul_left _ bounded))
      _ < (2 ^ (53 : Nat)) ^ (2 : Nat) * overflow * unity :=
        Nat.mul_lt_mul_of_pos_right rounding unity_pos
      _ = (2 ^ (53 : Nat)) ^ (2 : Nat) * (overflow * unity) := Nat.mul_assoc _ _ _
  have finite : x.scaledMagnitude * factor.scaledMagnitude * unity <
      unity * unity * overflow := by
    calc
      x.scaledMagnitude * factor.scaledMagnitude * unity < overflow * unity * unity :=
        Nat.mul_lt_mul_of_pos_right (Nat.lt_of_mul_lt_mul_left product) unity_pos
      _ = unity * unity * overflow := by
        ring
  have square : 2 ^ (2148 : Nat) = unity * unity := by
    decide +kernel
  obtain ⟨y, step, isNearest, nearest⟩ :=
    ofRatio_nearest x.negative (Nat.mul_pos unity_pos unity_pos) finite
  rw [scaleUp, square, isNearest]
  rfl

end Binary64

end MenuPlan

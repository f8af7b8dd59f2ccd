/-
# The decimal of a number determines the number

The search for the shortest decimal always ends on a grid with a hit, because the last grid that it
tries is finer than a quarter of the unit of the number. So the decimal of a number lies in the
number's neighbourhood. Neighbourhoods of different magnitudes have at most an end in common, which
then belongs to one of them only, because of two neighbours one has an odd significand. So numbers
with one decimal have one magnitude.
-/

import Mathlib
import MenuPlan.Proofs.Number.Decimal

namespace MenuPlan

/- Powers are those of the core library, as in the definitions. -/
attribute [local instance (2000)] instPowNat

namespace Binary64

/-- A magnitude lies in the neighbourhood of a number. -/
def IsNear (x : Binary64) (magnitude : ℚ) : Prop :=
  if x.neighbourhood.closed then
    (x.neighbourhood.lower * 2 ^ x.shift : Nat) ≤ magnitude * (2 ^ (1076 : Nat) : Nat) ∧
      magnitude * (2 ^ (1076 : Nat) : Nat) ≤ (x.neighbourhood.upper * 2 ^ x.shift : Nat)
  else
    (x.neighbourhood.lower * 2 ^ x.shift : Nat) < magnitude * (2 ^ (1076 : Nat) : Nat) ∧
      magnitude * (2 ^ (1076 : Nat) : Nat) < (x.neighbourhood.upper * 2 ^ x.shift : Nat)

/-- A negative power of ten clears the denominator. -/
theorem zpow_mul_toNat (power : Int) :
    (10 : ℚ) ^ power * (10 ^ (-power).toNat : Nat) = (10 ^ power.toNat : Nat) := by
  rcases le_total 0 power with upwards | downwards
  · obtain ⟨n, rfl⟩ := Int.eq_ofNat_of_zero_le upwards
    simp
  · obtain ⟨n, isNegated⟩ := Int.eq_ofNat_of_zero_le (Int.neg_nonneg_of_nonpos downwards)
    rw [← Int.neg_neg power, isNegated]
    simp

section Grid

variable (x : Binary64) (power : Int)

theorem cast_gridTen :
    (gridTen power : ℚ) = 10 ^ power * (2 ^ (1076 : Nat) : Nat) * (10 ^ (-power).toNat : Nat) := by
  rw [gridTen, Nat.cast_mul, ← zpow_mul_toNat, mul_right_comm]

theorem cast_gridUnit :
    (x.gridUnit power : ℚ) = (2 ^ x.shift : Nat) * (10 ^ (-power).toNat : Nat) := by
  rw [gridUnit, Nat.cast_mul, mul_comm]

theorem denominator_pos : (0 : ℚ) < (10 ^ (-power).toNat : Nat) :=
  Nat.cast_pos.mpr (Nat.pow_pos (by decide))

/-- The multiples of a grid that lie in the neighbourhood are those whose value does. -/
theorem within_iff_isNear (n : Nat) :
    x.Within power n ↔ x.IsNear (Decimal.mk n power).value := by
  have isTen : ((n * gridTen power : Nat) : ℚ) =
      (Decimal.mk n power).value * (2 ^ (1076 : Nat) : Nat) * (10 ^ (-power).toNat : Nat) := by
    rw [Nat.cast_mul, cast_gridTen, Decimal.value, mul_assoc, mul_assoc, mul_assoc]
  have isUnit : ∀ quarters : Nat, ((quarters * x.gridUnit power : Nat) : ℚ) =
      (quarters * 2 ^ x.shift : Nat) * (10 ^ (-power).toNat : Nat) := by
    intro quarters
    rw [Nat.cast_mul, cast_gridUnit, Nat.cast_mul, mul_assoc]
  rw [Within, IsNear]
  split_ifs
  · rw [← @Nat.cast_le ℚ, ← @Nat.cast_le ℚ, isTen, isUnit, isUnit,
      mul_le_mul_iff_left₀ (denominator_pos power), mul_le_mul_iff_left₀ (denominator_pos power)]
  · rw [← @Nat.cast_lt ℚ, ← @Nat.cast_lt ℚ, isTen, isUnit, isUnit,
      mul_lt_mul_iff_left₀ (denominator_pos power), mul_lt_mul_iff_left₀ (denominator_pos power)]

/-- A grid is finer than a quarter of the unit if its power of ten is smaller. -/
theorem gridTen_le_gridUnit_iff : gridTen power ≤ x.gridUnit power ↔
    (10 : ℚ) ^ power * (2 ^ (1076 : Nat) : Nat) ≤ (2 ^ x.shift : Nat) := by
  rw [← @Nat.cast_le ℚ, cast_gridTen, cast_gridUnit,
    mul_le_mul_iff_left₀ (denominator_pos power)]

end Grid

/-- The grids below a fine one are fine. -/
theorem fine_of_le {x : Binary64} {power finer : Int} (below : finer ≤ power)
    (fine : gridTen power ≤ x.gridUnit power) : gridTen finer ≤ x.gridUnit finer := by
  rw [gridTen_le_gridUnit_iff] at fine ⊢
  have smaller : (10 : ℚ) ^ finer ≤ 10 ^ power := zpow_le_zpow_right₀ (by norm_num) below
  exact le_trans (mul_le_mul_of_nonneg_right smaller (Nat.cast_nonneg _)) fine

/-- A grid that is finer than a quarter of the unit has a hit, just below the number. -/
theorem exists_onGrid_of_fine {x : Binary64} {power : Int} (nonzero : 0 < x.significand)
    (fine : gridTen power ≤ x.gridUnit power) : ∃ d, onGrid x power = some d := by
  rcases onGrid_cases x power with ⟨n, -, hit⟩ | ⟨outside, -⟩
  · exact ⟨_, hit⟩
  · exfalso
    apply outside
    have unitPositive := x.gridUnit_pos power
    have tenPositive : 0 < gridTen power :=
      Nat.mul_pos (Nat.pow_pos (by decide)) (by decide +kernel)
    have lowerBound : x.neighbourhood.lower + 1 ≤ 4 * x.significand := by
      show 4 * x.significand - (if x.significand = 2 ^ (52 : Nat) ∧ 0 < x.shift then 1 else 2) + 1 ≤ _
      split_ifs
      · omega
      · omega
    have upperBound : x.neighbourhood.upper = 4 * x.significand + 2 := rfl
    have atMost := Nat.div_mul_le_self (4 * x.significand * x.gridUnit power) (gridTen power)
    have above := Nat.lt_div_mul_add tenPositive (a := 4 * x.significand * x.gridUnit power)
    generalize 4 * x.significand * x.gridUnit power / gridTen power = below at *
    have lowerStep := Nat.mul_le_mul_right (x.gridUnit power) lowerBound
    rw [Nat.add_mul, Nat.one_mul] at lowerStep
    have strict : x.neighbourhood.lower * x.gridUnit power < below * gridTen power ∧
        below * gridTen power < x.neighbourhood.upper * x.gridUnit power := by
      rw [upperBound, Nat.add_mul]
      constructor
      · omega
      · omega
    rw [Within]
    split_ifs
    · exact ⟨Nat.le_of_lt strict.1, Nat.le_of_lt strict.2⟩
    · exact strict

/-- For every unit there is a grid that is fine, at most nineteen below the one where the search
starts for the largest significand with this unit. -/
theorem fine_below_largest : ∀ shift : Nat, shift ≤ 2045 →
    10 ^ (((shift : Int) - 1021) * 30103 / 100000 - 18).toNat * 2 ^ (1076 : Nat) ≤
      10 ^ (-(((shift : Int) - 1021) * 30103 / 100000 - 18)).toNat * 2 ^ shift := by
  intro shift inRange
  have all : ∀ shift : Nat, shift < 2046 →
      10 ^ (((shift : Int) - 1021) * 30103 / 100000 - 18).toNat * 2 ^ (1076 : Nat) ≤
        10 ^ (-(((shift : Int) - 1021) * 30103 / 100000 - 18)).toNat * 2 ^ shift := by
    decide +kernel
  exact all shift (by omega)

/-- A search that gets as far as a grid with a hit ends with a hit. -/
theorem firstGrid_of_hit {x : Binary64} {power : Int} {steps k : Nat} (within : k < steps)
    (hit : ∃ d, onGrid x (power - k) = some d) :
    ∃ grid, onGrid x grid = some (firstGrid x power steps) := by
  induction steps generalizing power k with
  | zero => omega
  | succ steps ih =>
      rw [firstGrid]
      cases first : onGrid x power with
      | some d => exact ⟨power, first⟩
      | none =>
          cases k with
          | zero =>
              rw [Nat.cast_zero, Int.sub_zero, first] at hit
              obtain ⟨d, isHit⟩ := hit
              cases isHit
          | succ k =>
              rw [Nat.cast_succ, Int.add_comm, ← Int.sub_sub] at hit
              exact ih (by omega) hit

/-- The decimal of a number is in the number's neighbourhood. -/
theorem isNear_shortest (x : Binary64) : x.IsNear x.shortest.value := by
  have canonical := x.canonical
  by_cases isZero : x.isZero = true
  · have noSignificand : x.significand = 0 := by
      rwa [Binary64.isZero, beq_iff_eq] at isZero
    have isClosed : x.neighbourhood.closed = true := by
      rw [neighbourhood, noSignificand]
      rfl
    have isLower : x.neighbourhood.lower = 0 := by
      rw [neighbourhood, noSignificand]
      exact Nat.zero_sub _
    have isValue : x.shortest.value = 0 := by
      rw [shortest, if_pos isZero, Decimal.value, Nat.cast_zero, zero_mul]
    rw [IsNear, if_pos isClosed, isLower, isValue, Nat.zero_mul, zero_mul, Nat.cast_zero]
    exact ⟨le_rfl, Nat.cast_nonneg _⟩
  · have nonzero : 0 < x.significand := by
      rw [Binary64.isZero, beq_iff_eq] at isZero
      omega
    have bits : x.significand.log2 < 53 := (Nat.log2_lt (by omega)).mpr canonical.1
    have start : ∃ grid, onGrid x grid = some x.shortest := by
      rw [shortest, if_neg isZero]
      apply firstGrid_of_hit (show 19 < 20 by decide)
      apply exists_onGrid_of_fine nonzero
      apply fine_of_le _ (fine_below_largest x.shift canonical.2.1)
      omega
    obtain ⟨grid, hit⟩ := start
    rcases onGrid_cases x grid with ⟨n, within, found⟩ | ⟨-, isNone⟩
    · rw [hit] at found
      rw [Option.some.inj found]
      exact (x.within_iff_isNear grid n).mp within
    · rw [hit] at isNone
      cases isNone

-- The smallest number lies between its half and one and a half times its size.
example : (ofDecimal false 5 (-324)).map shortest = some ⟨5, -324⟩ := by
  decide +kernel

/-- The magnitude of the first number is the smaller one. -/
def Before (x y : Binary64) : Prop :=
  x.shift < y.shift ∨ x.shift = y.shift ∧ x.significand < y.significand

/-- The ends of neighbourhoods with one unit, in quarters of it. -/
theorem upper_le_lower_of_significand_lt {x y : Binary64}
    (smaller : x.significand < y.significand) :
    x.neighbourhood.upper ≤ y.neighbourhood.lower ∧
      (x.neighbourhood.closed = true → y.neighbourhood.closed = true →
        x.neighbourhood.upper < y.neighbourhood.lower) := by
  simp only [neighbourhood, beq_iff_eq]
  constructor
  · split_ifs
    · omega
    · omega
  · intro even evenOther
    split_ifs
    · omega
    · omega

/-- The ends of neighbourhoods with different units, in quarters of the smaller one. -/
theorem upper_le_lower_of_shift_lt {x y : Binary64} (smaller : x.shift < y.shift) :
    x.neighbourhood.upper ≤ y.neighbourhood.lower * 2 ∧
      (x.neighbourhood.closed = true → x.neighbourhood.upper < y.neighbourhood.lower * 2) := by
  have canonical := x.canonical
  have canonicalOther := y.canonical
  simp only [neighbourhood, beq_iff_eq]
  constructor
  · split_ifs
    · omega
    · omega
  · intro even
    split_ifs
    · omega
    · omega

/-- A neighbourhood ends where that of a larger number begins, or before; and before if both ends
belong to their neighbourhoods. -/
theorem upper_le_lower {x y : Binary64} (before : x.Before y) :
    x.neighbourhood.upper * 2 ^ x.shift ≤ y.neighbourhood.lower * 2 ^ y.shift ∧
      (x.neighbourhood.closed = true → y.neighbourhood.closed = true →
        x.neighbourhood.upper * 2 ^ x.shift < y.neighbourhood.lower * 2 ^ y.shift) := by
  rcases before with smaller | ⟨sameShift, smaller⟩
  · obtain ⟨atMost, apart⟩ := upper_le_lower_of_shift_lt smaller
    have units : y.neighbourhood.lower * 2 * 2 ^ x.shift ≤ y.neighbourhood.lower * 2 ^ y.shift := by
      rw [Nat.mul_assoc, ← Nat.pow_succ']
      exact Nat.mul_le_mul_left _ (Nat.pow_le_pow_right (by decide) smaller)
    constructor
    · exact Nat.le_trans (Nat.mul_le_mul_right _ atMost) units
    · intro closed _
      exact Nat.lt_of_lt_of_le (Nat.mul_lt_mul_of_pos_right (apart closed) (Nat.two_pow_pos _)) units
  · obtain ⟨atMost, apart⟩ := upper_le_lower_of_significand_lt smaller
    rw [sameShift]
    constructor
    · exact Nat.mul_le_mul_right _ atMost
    · intro closed closedOther
      exact Nat.mul_lt_mul_of_pos_right (apart closed closedOther) (Nat.two_pow_pos _)

/-- Neighbourhoods of different magnitudes have nothing in common. -/
theorem not_isNear_of_before {x y : Binary64} (before : x.Before y) {magnitude : ℚ}
    (near : x.IsNear magnitude) : ¬ y.IsNear magnitude := by
  intro nearOther
  obtain ⟨atMost, apart⟩ := upper_le_lower before
  rw [← @Nat.cast_le ℚ] at atMost
  rw [← @Nat.cast_lt ℚ] at apart
  rw [IsNear] at near nearOther
  split_ifs at near nearOther with closed closedOther closedOther
  · exact absurd (le_trans nearOther.1 near.2) (not_le_of_gt (apart closed closedOther))
  · exact absurd (lt_of_lt_of_le nearOther.1 near.2) (not_lt_of_ge atMost)
  · exact absurd (lt_of_le_of_lt nearOther.1 near.2) (not_lt_of_ge atMost)
  · exact absurd (lt_trans nearOther.1 near.2) (not_lt_of_ge atMost)

/-- Numbers with one decimal have one magnitude. -/
theorem eq_of_shortest_value_eq {x y : Binary64} (same : x.shortest.value = y.shortest.value) :
    x.significand = y.significand ∧ x.shift = y.shift := by
  have near := x.isNear_shortest
  have nearOther := y.isNear_shortest
  rw [same] at near
  by_contra different
  have ordered : x.Before y ∨ y.Before x := by
    unfold Before
    omega
  rcases ordered with before | after
  · exact not_isNear_of_before before near nearOther
  · exact not_isNear_of_before after nearOther near

end Binary64

end MenuPlan

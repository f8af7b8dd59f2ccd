/-
# What the decimals of binary64 numbers look like

The digits of a natural number are digits, do not start with a zero unless the number is zero, and
give the number back. The decimal chosen for a binary64 number is at most half a unit above it,
whichever grid it was found on; that is all a reader needs to know to find a finite number again.
-/

import Mathlib
import MenuPlan.Number.Decimal

namespace MenuPlan

/- Powers are those of the core library, as in the definitions. -/
attribute [local instance (2000)] instPowNat

theorem decimalDigits_ne_nil (n : Nat) : decimalDigits n ≠ [] :=
  Nat.toDigits_ne_nil

theorem isDigit_of_mem_decimalDigits {n : Nat} {c : Char} (member : c ∈ decimalDigits n) :
    c.isDigit = true :=
  Nat.isDigit_of_mem_toDigits (by decide) (by decide) member

/-- The digits give the number back. -/
theorem ofDigitChars_decimalDigits (n : Nat) : Nat.ofDigitChars 10 (decimalDigits n) 0 = n :=
  Nat.ofDigitChars_ten_toDigits

/-- Every zero behind the digits is a power of ten. -/
theorem ofDigitChars_zeros (count n : Nat) :
    Nat.ofDigitChars 10 (List.replicate count '0') n = n * 10 ^ count := by
  induction count generalizing n with
  | zero => rw [List.replicate_zero, Nat.ofDigitChars_nil, Nat.pow_zero, Nat.mul_one]
  | succ count ih =>
      rw [List.replicate_succ, Nat.ofDigitChars_cons, ih, Nat.pow_succ', ← Nat.mul_assoc,
        Nat.mul_comm n 10]
      rfl

/-- Only zero starts with a zero. -/
theorem head?_decimalDigits_ne_zero {n : Nat} (positive : 0 < n) :
    (decimalDigits n).head? ≠ some '0' := by
  induction n using Nat.strong_induction_on with
  | _ n ih =>
      unfold decimalDigits
      rw [Nat.toDigits_eq_if (by decide)]
      by_cases small : n < 10
      · rw [if_pos small, List.head?_cons]
        intro isZero
        have same := Nat.digitChar_eq_zero.mp (Option.some.inj isZero)
        omega
      · rw [if_neg small, List.head?_append_of_ne_nil _ Nat.toDigits_ne_nil]
        exact ih (n / 10) (by omega) (by omega)

/-- The value of a decimal. -/
def Decimal.value (d : Decimal) : ℚ :=
  d.digits * 10 ^ d.exponent

namespace Binary64

/-- The power of ten of a grid, on the scale of the comparisons. -/
def gridTen (power : Int) : Nat :=
  10 ^ power.toNat * 2 ^ (1076 : Nat)

/-- A quarter of the unit of the number, on the scale of the comparisons. -/
def gridUnit (x : Binary64) (power : Int) : Nat :=
  10 ^ (-power).toNat * 2 ^ x.shift

theorem gridUnit_pos (x : Binary64) (power : Int) : 0 < x.gridUnit power :=
  Nat.mul_pos (Nat.pow_pos (by decide)) (Nat.two_pow_pos _)

/-- A multiple of the power of ten lies in the neighbourhood of the number. -/
def Within (x : Binary64) (power : Int) (n : Nat) : Prop :=
  if x.neighbourhood.closed then
    x.neighbourhood.lower * x.gridUnit power ≤ n * gridTen power ∧
      n * gridTen power ≤ x.neighbourhood.upper * x.gridUnit power
  else
    x.neighbourhood.lower * x.gridUnit power < n * gridTen power ∧
      n * gridTen power < x.neighbourhood.upper * x.gridUnit power

/-- The ends of the neighbourhood are not passed, whether they belong to it or not. -/
theorem Within.ends {x : Binary64} {power : Int} {n : Nat} (within : x.Within power n) :
    x.neighbourhood.lower * x.gridUnit power ≤ n * gridTen power ∧
      n * gridTen power ≤ x.neighbourhood.upper * x.gridUnit power := by
  rw [Within] at within
  split_ifs at within
  · exact within
  · exact ⟨Nat.le_of_lt within.1, Nat.le_of_lt within.2⟩

/-- The test of a grid gives a multiple in the neighbourhood, and if it gives none then the multiple
just below the number is not in the neighbourhood. -/
theorem onGrid_cases (x : Binary64) (power : Int) :
    (∃ n, x.Within power n ∧ onGrid x power = some ⟨n, power⟩) ∨
      ¬ x.Within power (4 * x.significand * x.gridUnit power / gridTen power) ∧
        onGrid x power = none := by
  unfold onGrid
  extract_lets ten unit near within below excess preferBelow
  have within_iff : ∀ n, within n = true ↔ x.Within power n := by
    intro n
    by_cases closed : near.closed = true
    · rw [Within, if_pos closed]
      simp only [within, if_pos closed, decide_eq_true_eq]
      rfl
    · rw [Within, if_neg closed]
      simp only [within, if_neg closed, decide_eq_true_eq]
      rfl
  rw [← within_iff]
  split_ifs with isBelow isAbove
  · exact Or.inl ⟨below, (within_iff below).mp isBelow.1, rfl⟩
  · exact Or.inl ⟨below + 1, (within_iff _).mp isAbove, rfl⟩
  · refine Or.inr ⟨?_, rfl⟩
    intro inside
    exact isBelow ⟨inside, Or.inr isAbove⟩

/-- A hit on a grid is a positive multiple of the power of ten and at most half a unit above the
number. -/
theorem onGrid_spec {x : Binary64} {power : Int} {d : Decimal} (nonzero : 0 < x.significand)
    (hit : onGrid x power = some d) :
    d.exponent = power ∧ 0 < d.digits ∧
      d.digits * (10 ^ power.toNat * 2 ^ (1076 : Nat)) ≤
        (4 * x.significand + 2) * (10 ^ (-power).toNat * 2 ^ x.shift) := by
  rcases onGrid_cases x power with ⟨n, within, found⟩ | ⟨-, isNone⟩
  · rw [hit] at found
    cases found
    have ends := within.ends
    have lowerPositive : 0 < x.neighbourhood.lower := by
      show 0 < 4 * x.significand - if x.significand = 2 ^ (52 : Nat) ∧ 0 < x.shift then 1 else 2
      split_ifs
      · omega
      · omega
    have positive := Nat.mul_pos lowerPositive (x.gridUnit_pos power)
    refine ⟨rfl, Nat.pos_of_ne_zero ?_, ends.2⟩
    rintro rfl
    omega
  · rw [hit] at isNone
    cases isNone

/-- The search ends on a grid with a hit, or without any. -/
theorem firstGrid_hit (x : Binary64) (power : Int) (steps : Nat) :
    firstGrid x power steps = ⟨0, 0⟩ ∨
      ∃ grid, onGrid x grid = some (firstGrid x power steps) := by
  induction steps generalizing power with
  | zero => exact Or.inl rfl
  | succ steps ih =>
      rw [firstGrid]
      cases hit : onGrid x power with
      | none => exact ih (power - 1)
      | some d => exact Or.inr ⟨power, hit⟩

/-- The decimal of a number is zero or a hit. -/
theorem shortest_spec (x : Binary64) :
    x.shortest = ⟨0, 0⟩ ∨
      0 < x.shortest.digits ∧
        x.shortest.digits * (10 ^ x.shortest.exponent.toNat * 2 ^ (1076 : Nat)) ≤
          (4 * x.significand + 2) * (10 ^ (-x.shortest.exponent).toNat * 2 ^ x.shift) := by
  unfold shortest
  by_cases isZero : x.isZero = true
  · exact Or.inl (if_pos isZero)
  · have nonzero : 0 < x.significand := by
      rw [Binary64.isZero, beq_iff_eq] at isZero
      omega
    rw [if_neg isZero]
    refine (firstGrid_hit x _ 20).imp id fun ⟨grid, hit⟩ => ?_
    obtain ⟨exponent, positive, bounded⟩ := onGrid_spec nonzero hit
    rw [exponent]
    exact ⟨positive, bounded⟩

/-- The decimal of a number is at most half a unit above it. -/
theorem shortest_le_upper (x : Binary64) :
    x.shortest.digits * (10 ^ x.shortest.exponent.toNat * 2 ^ (1076 : Nat)) ≤
      (4 * x.significand + 2) * (10 ^ (-x.shortest.exponent).toNat * 2 ^ x.shift) := by
  rcases x.shortest_spec with isNone | ⟨-, bounded⟩
  · rw [isNone, Nat.zero_mul]
    exact Nat.zero_le _
  · exact bounded

/-- A decimal without digits has no exponent. -/
theorem shortest_exponent_of_digits_eq_zero {x : Binary64} (noDigits : x.shortest.digits = 0) :
    x.shortest.exponent = 0 := by
  rcases x.shortest_spec with isNone | ⟨positive, -⟩
  · rw [isNone]
  · omega

end Binary64

end MenuPlan

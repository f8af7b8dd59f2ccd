/-
# Reading a significand and a power of ten

Which significands and powers of ten a reader turns into a finite number. Downwards every division
succeeds; upwards the product of the two rounded factors must stay below the overflow threshold,
which it does up to a ceiling slightly below the largest number. The digits that do not fit the
significand never raise what is read.
-/

import Mathlib
import MenuPlan.Json.Number
import MenuPlan.Proofs.Number.Rounding

namespace MenuPlan.Json.Scaled

open Binary64

/- Powers are those of the core library, as in the definitions. -/
attribute [local instance (2000)] instPowNat

/-- Each division leaves at most four times what it was given, and one more. -/
theorem lower_isSome (x : Binary64) (exponent steps : Nat)
    (room : 2 * ((x.scaledMagnitude + 1) * 4 ^ steps) ≤ overflow) :
    (lower x exponent steps).isSome := by
  induction steps generalizing x exponent with
  | zero => rfl
  | succ steps ih =>
      have finite : 2 * x.scaledMagnitude < overflow := by
        have grows := Nat.le_mul_of_pos_right (x.scaledMagnitude + 1)
          (Nat.pow_pos (by decide : 0 < 4) : 0 < 4 ^ (steps + 1))
        omega
      have divide : ∀ power ≤ 308, ∃ factor y, ofDecimal false 1 (power : Nat) = some factor ∧
          x.scaleDown factor = some y ∧ y.scaledMagnitude ≤ 4 * x.scaledMagnitude + 1 := by
        intro power small
        obtain ⟨factor, isPower, -, atLeast⟩ := ofDecimal_power small
        have one : unity ≤ 10 ^ power * unity :=
          Nat.le_mul_of_pos_left unity (Nat.pow_pos (by decide))
        obtain ⟨y, isQuotient, bounded⟩ := scaleDown_bounded (Nat.le_trans one atLeast) finite
        exact ⟨factor, y, isPower, isQuotient, bounded⟩
      rw [lower]
      by_cases isZero : x.isZero = true
      · rw [if_pos isZero]
        rfl
      · rw [if_neg isZero]
        by_cases last : exponent ≤ 308
        · obtain ⟨factor, y, isPower, isQuotient, -⟩ := divide exponent last
          rw [if_pos last, isPower, Option.bind_some, isQuotient]
          rfl
        · obtain ⟨factor, y, isPower, isQuotient, bounded⟩ := divide 308 (Nat.le_refl _)
          have power : ofDecimal false 1 308 = some factor := isPower
          have roomLeft : 2 * ((y.scaledMagnitude + 1) * 4 ^ steps) ≤ overflow := by
            calc
              2 * ((y.scaledMagnitude + 1) * 4 ^ steps)
                  ≤ 2 * ((4 * (x.scaledMagnitude + 1)) * 4 ^ steps) :=
                Nat.mul_le_mul_left 2 (Nat.mul_le_mul_right _ (by omega))
              _ = 2 * ((x.scaledMagnitude + 1) * 4 ^ (steps + 1)) := by
                rw [Nat.pow_succ]
                ring
              _ ≤ overflow := room
          have later := ih y (exponent - 308) roomLeft
          rw [if_neg last, power]
          show (x.scaleDown factor >>= fun y => lower y (exponent - 308) steps).isSome
          rw [isQuotient]
          exact later

/-- A significand of 64 bits is rounded up by less than a bit. -/
theorem ofRatio_significand (negative : Bool) {n : Nat} (fits : n < 2 ^ (64 : Nat)) :
    ∃ x, ofRatio negative n 1 = some x ∧
      2 ^ (53 : Nat) * x.scaledMagnitude ≤ (2 ^ (53 : Nat) + 1) * (n * unity) ∧
      (n = 0 → x.isZero = true) := by
  by_cases isZero : n = 0
  · subst isZero
    refine ⟨zero negative, by rw [ofRatio, if_pos rfl], ?_, fun _ => rfl⟩
    simp [scaledMagnitude, zero]
  · have widest : 2 ^ (64 : Nat) * unity < overflow := by
      decide +kernel
    have finite : n * unity < overflow :=
      Nat.lt_trans (Nat.mul_lt_mul_of_pos_right fits unity_pos) widest
    obtain ⟨x, isRounded, above, -⟩ := ofRatio_one negative (Nat.pos_of_ne_zero isZero) finite
    exact ⟨x, isRounded, above, fun h => absurd h isZero⟩

/-- Up to the ceiling there is a number. -/
theorem toBinary64?_isSome (s : Scaled) (negative : Bool) (fits : s.significand < 2 ^ (64 : Nat))
    (bounded : 0 ≤ s.exponent → s.significand * 10 ^ s.exponent.toNat ≤ ceiling) :
    (s.toBinary64? negative).isSome := by
  obtain ⟨x, isRounded, above, zeroCase⟩ := ofRatio_significand negative fits
  rw [toBinary64?, isRounded]
  show (if 0 ≤ s.exponent then _ else _ : Option Binary64).isSome
  by_cases upwards : 0 ≤ s.exponent
  · rw [if_pos upwards]
    by_cases small : s.exponent ≤ 308
    · have smallNat : s.exponent.toNat ≤ 308 := by
        omega
      obtain ⟨factor, isPower, powerAbove, -⟩ := ofDecimal_power smallNat
      rw [Int.toNat_of_nonneg upwards] at isPower
      rw [if_pos small, isPower, Option.bind_some]
      exact scaleUp_isSome above powerAbove (bounded upwards)
    · -- No digits but zero are left below the ceiling at such a power.
      have isZero : s.significand = 0 := by
        by_contra nonzero
        have tooLarge : ceiling < 10 ^ s.exponent.toNat := ceiling_lt_pow (by omega)
        have atLeast : 10 ^ s.exponent.toNat ≤ s.significand * 10 ^ s.exponent.toNat :=
          Nat.le_mul_of_pos_left _ (Nat.pos_of_ne_zero nonzero)
        exact absurd (bounded upwards) (Nat.not_le_of_lt (Nat.lt_of_lt_of_le tooLarge atLeast))
      rw [if_neg small, if_pos (zeroCase isZero)]
      rfl
  · rw [if_neg upwards]
    apply lower_isSome x _ 4
    have room : 2 * ((2 * (2 ^ (64 : Nat) * unity) + 1) * 4 ^ (4 : Nat)) ≤ overflow := by
      decide +kernel
    have magnitude : x.scaledMagnitude ≤ 2 * (2 ^ (64 : Nat) * unity) :=
      Nat.le_trans (le_two_mul_of_rounded above)
        (Nat.mul_le_mul_left 2 (Nat.mul_le_mul_right unity (Nat.le_of_lt fits)))
    exact Nat.le_trans
      (Nat.mul_le_mul_left 2 (Nat.mul_le_mul_right _ (Nat.add_le_add_right magnitude 1))) room

theorem digitValue_lt {c : Char} (isDigit : c.isDigit = true) : digitValue c < 10 := by
  have range : '0'.toNat ≤ c.toNat ∧ c.toNat ≤ '9'.toNat := by
    simpa [Char.isDigit, UInt32.le_iff_toNat_le] using isDigit
  have nine : '9'.toNat = '0'.toNat + 9 := rfl
  rw [digitValue]
  omega

/-- The value of digits, as the standard library has it. -/
theorem foldl_digitValue (digits : List Char) (n : Nat) :
    digits.foldl (fun n c => n * 10 + digitValue c) n = Nat.ofDigitChars 10 digits n := by
  rw [Nat.ofDigitChars_eq_foldl]
  congr 1
  funext n c
  rw [Nat.mul_comm]
  rfl

/-- Up to nineteen digits before the point are read as they stand. -/
theorem foldl_addWhole {whole : List Char} (isWhole : ∀ c ∈ whole, c.isDigit = true)
    (n before : Nat) (small : n < 10 ^ before) (short : before + whole.length ≤ 19) :
    whole.foldl addWhole ⟨n, 0, false⟩ = ⟨Nat.ofDigitChars 10 whole n, 0, false⟩ ∧
      Nat.ofDigitChars 10 whole n < 10 ^ (before + whole.length) := by
  induction whole generalizing n before with
  | nil => exact ⟨by rw [List.foldl_nil, Nat.ofDigitChars_nil], by simpa using small⟩
  | cons c whole ih =>
      have digit := digitValue_lt (isWhole c List.mem_cons_self)
      have length : before + 1 + whole.length = before + (c :: whole).length := by
        rw [List.length_cons]
        omega
      have next : 10 * n + digitValue c < 10 ^ (before + 1) := by
        rw [Nat.pow_succ]
        omega
      have fits : ¬ (2 ^ (64 : Nat) ≤ n * 10 + digitValue c) := by
        have widest : 10 ^ (before + 1) ≤ 10 ^ (19 : Nat) :=
          Nat.pow_le_pow_right (by decide) (by omega)
        omega
      have added : addWhole ⟨n, 0, false⟩ c = ⟨10 * n + digitValue c, 0, false⟩ := by
        rw [addWhole]
        simp [fits, Nat.mul_comm]
      have later := ih (fun d member => isWhole d (List.mem_cons_of_mem _ member)) _ _ next
        (by omega)
      rw [List.foldl_cons, added, Nat.ofDigitChars_cons, ← length]
      exact later

/-- Once a digit has been dropped the later ones are dropped as well. -/
theorem foldl_addFraction_full (fraction : List Char) {s : Scaled} (full : s.full = true) :
    fraction.foldl addFraction s = s := by
  induction fraction with
  | nil => rfl
  | cons c fraction ih =>
      have same : addFraction s c = s := by
        cases s
        cases full
        rfl
      rw [List.foldl_cons, same, ih]

/-- Some of the digits after the point are taken, and what is read is no more than what all of them
write. -/
theorem foldl_addFraction (fraction : List Char) (s : Scaled)
    (fits : s.significand < 2 ^ (64 : Nat)) :
    (fraction.foldl addFraction s).significand < 2 ^ (64 : Nat) ∧
      ∃ taken ≤ fraction.length,
        (fraction.foldl addFraction s).exponent = s.exponent - taken ∧
        (fraction.foldl addFraction s).significand * 10 ^ (fraction.length - taken) ≤
          Nat.ofDigitChars 10 fraction s.significand := by
  induction fraction generalizing s with
  | nil => exact ⟨fits, 0, Nat.le_refl _, by simp, by simp⟩
  | cons c fraction ih =>
      rw [List.foldl_cons]
      by_cases drop : s.full = true ∨ 2 ^ (64 : Nat) ≤ s.significand * 10 + digitValue c
      · have added : addFraction s c = { s with full := true } := by
          rw [addFraction]
          exact if_pos drop
        rw [added, foldl_addFraction_full fraction rfl]
        refine ⟨fits, 0, Nat.zero_le _, by simp, ?_⟩
        rw [Nat.ofDigitChars_eq_ofDigitChars_zero, Nat.mul_comm]
        exact Nat.le_add_right _ _
      · have added : addFraction s c =
            { s with significand := s.significand * 10 + digitValue c
                     exponent := s.exponent - 1 } := by
          rw [addFraction]
          exact if_neg drop
        have fitsNext : s.significand * 10 + digitValue c < 2 ^ (64 : Nat) :=
          Nat.lt_of_not_le fun large => drop (Or.inr large)
        rw [added]
        obtain ⟨fitsLater, taken, few, exponent, bounded⟩ :=
          ih { s with significand := s.significand * 10 + digitValue c
                      exponent := s.exponent - 1 } fitsNext
        refine ⟨fitsLater, taken + 1, Nat.succ_le_succ few, ?_, ?_⟩
        · rw [exponent]
          push_cast
          omega
        · rw [List.length_cons, Nat.add_sub_add_right, Nat.ofDigitChars_cons, Nat.mul_comm 10]
          exact bounded

/-- Digits of a literal with a short whole part. -/
theorem ofDigits_spec {whole : List Char} (isWhole : ∀ c ∈ whole, c.isDigit = true)
    (short : whole.length ≤ 19) (fraction : List Char) :
    (ofDigits whole fraction).significand < 2 ^ (64 : Nat) ∧
      ∃ taken ≤ fraction.length,
        (ofDigits whole fraction).exponent = -(taken : Int) ∧
        (ofDigits whole fraction).significand * 10 ^ (fraction.length - taken) ≤
          Nat.ofDigitChars 10 (whole ++ fraction) 0 := by
  obtain ⟨isRead, small⟩ := foldl_addWhole isWhole 0 0 Nat.one_pos (by omega)
  have fits : Nat.ofDigitChars 10 whole 0 < 2 ^ (64 : Nat) := by
    have widest : 10 ^ (0 + whole.length) ≤ 10 ^ (19 : Nat) :=
      Nat.pow_le_pow_right (by decide) (by omega)
    omega
  have later := foldl_addFraction fraction ⟨Nat.ofDigitChars 10 whole 0, 0, false⟩ fits
  rw [ofDigits, isRead, Nat.ofDigitChars_append]
  simpa using later

end MenuPlan.Json.Scaled

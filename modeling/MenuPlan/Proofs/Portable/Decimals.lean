/-
# Short decimals

A number whose digits fit 53 bits and whose power of ten is at most 22 in either direction is
portable: the reader of JSON takes all its digits, converts both the digits and the power of ten
without rounding, and rounds only their product or quotient, as the reader of YAML does.
-/

import MenuPlan.Proofs.Number.Exact
import MenuPlan.Proofs.Portable.Numerals

namespace MenuPlan

/- Powers are those of the core library, as in the definitions. -/
attribute [local instance (2000)] instPowNat

namespace Json.Scaled

/-- Digits only add to a number. -/
theorem le_ofDigitChars (digits : List Char) (n : Nat) : n ≤ Nat.ofDigitChars 10 digits n := by
  rw [Nat.ofDigitChars_eq_ofDigitChars_zero]
  exact Nat.le_add_right_of_le (Nat.le_mul_of_pos_left n (Nat.pow_pos (by decide)))

/-- All digits before the point are taken when they fit 64 bits. -/
theorem foldl_addWhole_of_fits {whole : List Char} {n : Nat}
    (fits : Nat.ofDigitChars 10 whole n < 2 ^ (64 : Nat)) :
    whole.foldl addWhole ⟨n, 0, false⟩ = ⟨Nat.ofDigitChars 10 whole n, 0, false⟩ := by
  induction whole generalizing n with
  | nil => rfl
  | cons c whole ih =>
      rw [Nat.ofDigitChars_cons] at fits ⊢
      have fitsHere : n * 10 + digitValue c < 2 ^ (64 : Nat) := by
        have atMost := le_ofDigitChars whole (10 * n + digitValue c)
        have := Nat.lt_of_le_of_lt atMost fits
        omega
      have added : addWhole ⟨n, 0, false⟩ c = ⟨10 * n + digitValue c, 0, false⟩ := by
        rw [addWhole]
        simp [Nat.not_le.mpr fitsHere, Nat.mul_comm]
      rw [List.foldl_cons, added]
      exact ih fits

/-- So are those after it, which lower the power of ten. -/
theorem foldl_addFraction_of_fits {fraction : List Char} {n : Nat} (exponent : Int)
    (fits : Nat.ofDigitChars 10 fraction n < 2 ^ (64 : Nat)) :
    fraction.foldl addFraction ⟨n, exponent, false⟩ =
      ⟨Nat.ofDigitChars 10 fraction n, exponent - fraction.length, false⟩ := by
  induction fraction generalizing n exponent with
  | nil => simp
  | cons c fraction ih =>
      rw [Nat.ofDigitChars_cons] at fits ⊢
      have fitsHere : n * 10 + digitValue c < 2 ^ (64 : Nat) := by
        have atMost := le_ofDigitChars fraction (10 * n + digitValue c)
        have := Nat.lt_of_le_of_lt atMost fits
        omega
      have added : addFraction ⟨n, exponent, false⟩ c =
          ⟨10 * n + digitValue c, exponent - 1, false⟩ := by
        rw [addFraction]
        simp [Nat.not_le.mpr fitsHere, Nat.mul_comm]
      have isLength :
          exponent - 1 - (fraction.length : Int) = exponent - (c :: fraction).length := by
        rw [List.length_cons]
        omega
      rw [List.foldl_cons, added, ← isLength]
      exact ih (exponent - 1) fits

/-- All digits are taken when they fit 64 bits. -/
theorem ofDigits_of_fits {whole fraction : List Char}
    (fits : Nat.ofDigitChars 10 (whole ++ fraction) 0 < 2 ^ (64 : Nat)) :
    ofDigits whole fraction =
      ⟨Nat.ofDigitChars 10 (whole ++ fraction) 0, -fraction.length, false⟩ := by
  rw [Nat.ofDigitChars_append] at fits ⊢
  have fitsWhole := Nat.lt_of_le_of_lt (le_ofDigitChars fraction _) fits
  rw [ofDigits, foldl_addWhole_of_fits fitsWhole]
  simpa using foldl_addFraction_of_fits 0 fits

/-- A number that needs no rounding but the last is the nearest one. -/
theorem toBinary64?_exact (s : Scaled) (negative : Bool) (small : s.significand < 2 ^ (53 : Nat))
    (near : s.exponent.natAbs ≤ 22) :
    s.toBinary64? negative = Binary64.ofDecimal negative s.significand s.exponent := by
  obtain ⟨x, isNumber, isSign, isExact, isZero_iff⟩ := Binary64.ofRatio_one_exact negative small
  obtain ⟨factor, isFactor, isPower⟩ := Binary64.ofDecimal_power_exact _ near
  have nonzero : 10 ^ s.exponent.natAbs ≠ 0 :=
    Nat.pos_iff_ne_zero.mp (Nat.pow_pos (by decide))
  rw [toBinary64?, isNumber, Binary64.ofDecimal_near negative near]
  simp only [Option.bind_eq_bind, Option.bind_some]
  by_cases upwards : 0 ≤ s.exponent
  · have isExponent : (s.exponent.natAbs : Int) = s.exponent := by omega
    rw [isExponent] at isFactor
    rw [if_pos upwards, if_pos (by omega), if_pos upwards, isFactor, Option.bind_some,
      Binary64.scaleUp_exact isExact isPower, isSign]
  · rw [if_neg upwards, if_neg upwards, lower]
    by_cases isZero : s.significand = 0
    · rw [if_pos (isZero_iff.mpr isZero), ← isNumber, isZero]
      rw [Binary64.ofRatio, Binary64.ofRatio, if_pos rfl, if_pos rfl]
    · rw [if_neg (fun isNone => isZero (isZero_iff.mp isNone)), if_pos (by omega), isFactor,
        Option.bind_some, Binary64.scaleDown_exact isExact isPower nonzero, isSign]

end Json.Scaled

namespace Portable

/-- Digits are read as the number that they write. -/
theorem natural?_of_digits {digits : List Char} (nonempty : digits ≠ [])
    (isDigits : ∀ c ∈ digits, c.isDigit = true) :
    Json.natural? digits = some (Nat.ofDigitChars 10 digits 0) := by
  have wellFormed : ¬ (digits.isEmpty = true ∨ ¬ digits.all Char.isDigit = true) := by
    rw [List.isEmpty_iff, List.all_eq_true.mpr isDigits]
    simp [nonempty]
  rw [Json.natural?, if_neg wellFormed, Json.Scaled.foldl_digitValue]

/-- An exponent is read as it is spelled. -/
theorem SpellsExponent.json {scale : List Char} {exponent : Int}
    (isExponent : SpellsExponent scale exponent) :
    (if scale.isEmpty then some 0 else Json.exponent? scale) = some exponent := by
  cases isExponent with
  | absent => rfl
  | @unsigned letter digits isE nonempty isDigits =>
      have isNatural := natural?_of_digits nonempty isDigits
      obtain ⟨first, rest, rfl⟩ := List.exists_cons_of_ne_nil nonempty
      have noSign : first ≠ '-' ∧ first ≠ '+' := by
        have isDigit := isDigits first List.mem_cons_self
        constructor
        · rintro rfl
          cases isDigit
        · rintro rfl
          cases isDigit
      rcases isE with rfl | rfl
      all_goals
        simp [Json.exponent?, noSign, isNatural]
  | positive isE nonempty isDigits | negative isE nonempty isDigits =>
      rcases isE with rfl | rfl
      all_goals
        simp [Json.exponent?, natural?_of_digits nonempty isDigits]

namespace Numeral

variable (n : Numeral)

/-- A number with a fraction or an exponent is scaled by its power of ten. -/
theorem number?_of_fits (notWhole : ¬ n.IsWhole) (fits : n.digits < 2 ^ (64 : Nat)) {x : Binary64}
    (isRead : Json.number? n.text = some (.real x)) :
    Json.Scaled.toBinary64? ⟨n.digits, n.power, false⟩ n.negative = some x := by
  have exponentHead := n.isExponent.head
  have isTail : Json.fraction? n.tail = some (n.fraction, n.scale) :=
    Json.Literal.fraction?_fractionText n.isFraction (fun c member => (exponentHead c member).1)
      fun isPoint => (exponentHead '.' isPoint).2 rfl
  rw [← n.tail_eq_nil_iff] at notWhole
  rw [number?_text, Json.unsigned?, n.cut_unsigned.1, n.cut_unsigned.2] at isRead
  dsimp only at isRead
  split_ifs at isRead with refused noTail
  · exact absurd (List.isEmpty_iff.mp noTail) notWhole
  · have isExponent := n.isExponent.json
    have isDigits : Json.Scaled.ofDigits n.whole n.fraction =
        ⟨n.digits, -n.fraction.length, false⟩ :=
      Json.Scaled.ofDigits_of_fits fits
    have isPower : -(n.fraction.length : Int) + n.exponent = n.power := by
      rw [power]
      omega
    have isReal : (Json.Scaled.toBinary64? ⟨n.digits, n.power, false⟩ n.negative).map Number.real =
        some (.real x) := by
      rw [isTail] at isRead
      simp only [Option.bind_eq_bind, Option.bind_some, isDigits] at isRead
      split_ifs at isExponent isRead with noScale
      · rwa [Option.some.inj isExponent, isPower] at isRead
      · rwa [isExponent, Option.bind_some, isPower] at isRead
    obtain ⟨found, isFound, isSame⟩ := Option.map_eq_some_iff.mp isReal
    cases isSame
    exact isFound

/-- A number with few digits and a small power of ten is portable. -/
theorem isPortable_of_short (small : n.digits < 2 ^ (53 : Nat)) (near : n.power.natAbs ≤ 22)
    (noNegativeZero : n.IsWhole → ¬ (n.negative = true ∧ n.digits = 0)) : n.IsPortable where
  integer := by
    intro isInteger
    refine ⟨?_, noNegativeZero isInteger.1⟩
    rw [integer, InRange]
    split_ifs <;> omega
  real := by
    intro notInteger x isRead
    have fits : n.digits < 2 ^ (64 : Nat) := by omega
    have notWhole : ¬ n.IsWhole := by
      intro isWhole
      refine notInteger ⟨isWhole, ?_⟩
      rw [integer, Yaml.FitsWide]
      split_ifs <;> omega
    have isScaled := n.number?_of_fits notWhole fits isRead
    rwa [Json.Scaled.toBinary64?_exact _ _ small near] at isScaled

end Numeral

end Portable

end MenuPlan

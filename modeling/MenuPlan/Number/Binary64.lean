/-
# Finite binary64 numbers

A finite binary floating point number with 53 significant bits, kept as sign, significand and
shift: its magnitude is `significand * 2 ^ shift / 2 ^ 1074`. The type holds the canonical pair
only, so two numbers with one sign and one magnitude are the same value, and `0.0` and `-0.0`
differ in the sign alone.

All arithmetic is on natural numbers: a quotient is rounded to the nearest number of the type, a
tie going to the even significand, and a magnitude that is too large has no number. Nothing here
refers to machine floating point, so every result can be computed in a proof.
-/

namespace MenuPlan

/- Powers are those of the core library wherever this module is imported. -/
attribute [local instance (2000)] instPowNat

/-- The nearest natural number to `num / den`, a half going to the even neighbour. -/
def roundHalfEven (num den : Nat) : Nat :=
  let floor := num / den
  let twice := 2 * (num % den)
  if twice > den then floor + 1
  else if twice = den ∧ floor % 2 = 1 then floor + 1
  else floor

/-- A finite binary64 number `± significand * 2 ^ shift / 2 ^ 1074`. -/
structure Binary64 where
  negative : Bool
  significand : Nat
  shift : Nat
  /-- Significands have at most 53 bits, exactly 53 where the shift could be smaller. -/
  canonical : significand < 2 ^ (53 : Nat) ∧ shift ≤ 2045 ∧
    (shift = 0 ∨ 2 ^ (52 : Nat) ≤ significand)
deriving DecidableEq

namespace Binary64

/-- The number whose fields these are, if they are canonical. -/
def ofParts (negative : Bool) (significand shift : Nat) : Option Binary64 :=
  if canonical : significand < 2 ^ (53 : Nat) ∧ shift ≤ 2045 ∧
      (shift = 0 ∨ 2 ^ (52 : Nat) ≤ significand) then
    some ⟨negative, significand, shift, canonical⟩
  else
    none

/-- Zero with a sign. -/
def zero (negative : Bool) : Binary64 :=
  ⟨negative, 0, 0, by decide⟩

/-- Both zeros are zero. -/
def isZero (x : Binary64) : Bool :=
  x.significand == 0

/-- The magnitude as a numerator over `2 ^ 1074`. -/
def scaledMagnitude (x : Binary64) : Nat :=
  x.significand * 2 ^ x.shift

/-- Rounds `num / den` with the unit `2 ^ shift / 2 ^ 1074`; a significand that rounds up to
`2 ^ 53` is halved into the next unit. -/
def roundAt (negative : Bool) (num den shift : Nat) : Option Binary64 :=
  let significand := roundHalfEven (num * 2 ^ (1074 : Nat)) (den * 2 ^ shift)
  if significand = 2 ^ (53 : Nat) then ofParts negative (2 ^ (52 : Nat)) (shift + 1)
  else ofParts negative significand shift

/-- The number nearest to `num / den`, or none when that lies beyond the largest finite number.
The unit is the smallest one under which the quotient has no more than 53 bits before the point;
bit lengths give it up to one step. -/
def ofRatio (negative : Bool) (num den : Nat) : Option Binary64 :=
  let shift := num.log2 + 1021 - den.log2
  if num = 0 then some (zero negative)
  else if num * 2 ^ (1074 : Nat) < den * 2 ^ shift * 2 ^ (53 : Nat) then roundAt negative num den shift
  else roundAt negative num den (shift + 1)

/-- The number nearest to `digits * 10 ^ exponent`. Exponents far outside the range of the type
are answered without computing the power. -/
def ofDecimal (negative : Bool) (digits : Nat) (exponent : Int) : Option Binary64 :=
  if digits = 0 then some (zero negative)
  else
    let size : Int := digits.log2
    if exponent ≥ 310 then none
    else if size + 3 * exponent < -1200 then some (zero negative)
    else if 0 ≤ exponent then ofRatio negative (digits * 10 ^ exponent.toNat) 1
    else ofRatio negative digits (10 ^ (-exponent).toNat)

/-- The product of the magnitudes, rounded, with the sign of the first factor. -/
def scaleUp (x factor : Binary64) : Option Binary64 :=
  ofRatio x.negative (x.scaledMagnitude * factor.scaledMagnitude) (2 ^ (2148 : Nat))

/-- The quotient of the magnitudes, rounded, with the sign of the dividend. -/
def scaleDown (x divisor : Binary64) : Option Binary64 :=
  ofRatio x.negative x.scaledMagnitude divisor.scaledMagnitude

end Binary64

end MenuPlan

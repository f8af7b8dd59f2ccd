/-
# Numbers in JSON text

The number that a word of JSON text writes. A literal without fraction and exponent is an integer
when a document can hold it, except that `-0` keeps its sign as a binary64 number.

All other literals become binary64 numbers in two steps. First the digits are collected as long as
they fit an unsigned 64-bit integer: later digits before the point only raise the power of ten, and
later ones after it are dropped. Then the integer, rounded to binary64, is multiplied or divided by
a power of ten, rounding once more. The result can miss the nearest number by a unit in the last
place; it is what a reader of plan files computes, so it is part of what a document means.
-/

import MenuPlan.Number.Basic

namespace MenuPlan.Json

/- Powers are those of the core library wherever this module is imported. -/
attribute [local instance (2000)] instPowNat

/-- A significand of at most 64 bits and a power of ten. -/
structure Scaled where
  significand : Nat
  exponent : Int
  /-- Whether a digit has been left out. -/
  full : Bool

namespace Scaled

/-- The value of a decimal digit. -/
def digitValue (c : Char) : Nat :=
  c.toNat - '0'.toNat

/-- Takes a digit before the point; from the first one that does not fit, digits only count. -/
def addWhole (s : Scaled) (c : Char) : Scaled :=
  let next := s.significand * 10 + digitValue c
  if s.full ∨ 2 ^ (64 : Nat) ≤ next then { s with exponent := s.exponent + 1, full := true }
  else { s with significand := next }

/-- Takes a digit after the point; from the first one that does not fit, digits are dropped. -/
def addFraction (s : Scaled) (c : Char) : Scaled :=
  let next := s.significand * 10 + digitValue c
  if s.full ∨ 2 ^ (64 : Nat) ≤ next then { s with full := true }
  else { s with significand := next, exponent := s.exponent - 1 }

/-- The digits of a literal. -/
def ofDigits (whole fraction : List Char) : Scaled :=
  let s := whole.foldl addWhole ⟨0, 0, false⟩
  fraction.foldl addFraction { s with full := false }

/-- Scales down by `10 ^ 308` at a time while the exponent is too small for one division. -/
def lower (x : Binary64) (exponent : Nat) : Nat → Option Binary64
  | 0 => some x
  | steps + 1 =>
      if x.isZero then some x
      else if exponent ≤ 308 then (Binary64.ofDecimal false 1 exponent).bind x.scaleDown
      else do
        let power ← Binary64.ofDecimal false 1 308
        lower (← x.scaleDown power) (exponent - 308) steps

/-- The magnitude as a binary64 number, or none when it is too large. Three divisions by
`10 ^ 308` make any 64-bit significand zero. -/
def toBinary64? (s : Scaled) (negative : Bool) : Option Binary64 := do
  let x ← Binary64.ofRatio negative s.significand 1
  if 0 ≤ s.exponent then
    if s.exponent ≤ 308 then (Binary64.ofDecimal false 1 s.exponent).bind x.scaleUp
    else if x.isZero then some x
    else none
  else lower x s.exponent.natAbs 4

end Scaled

/-- A fraction: a point and at least one digit. Nothing is no fraction. -/
def fraction? : List Char → Option (List Char × List Char)
  | '.' :: rest =>
      let digits := rest.takeWhile Char.isDigit
      if digits.isEmpty then none else some (digits, rest.dropWhile Char.isDigit)
  | rest => some ([], rest)

/-- The value of a run of digits. -/
def natural? (digits : List Char) : Option Nat :=
  if digits.isEmpty ∨ ¬ digits.all Char.isDigit then none
  else some (digits.foldl (fun n c => n * 10 + Scaled.digitValue c) 0)

/-- An exponent: a letter, a sign if it has one, and digits to the end. -/
def exponent? : List Char → Option Int
  | 'e' :: '-' :: digits | 'E' :: '-' :: digits => (natural? digits).map fun n => -(n : Int)
  | 'e' :: '+' :: digits | 'E' :: '+' :: digits => (natural? digits).map Int.ofNat
  | 'e' :: digits | 'E' :: digits => (natural? digits).map Int.ofNat
  | _ => none

/-- The number that a literal without fraction and exponent writes. -/
def wholeNumber? (negative : Bool) (digits : List Char) : Option Number :=
  let n := digits.foldl (fun n c => n * 10 + Scaled.digitValue c) 0
  let value : Int := if negative then -n else n
  if negative ∧ n = 0 then some (.real (.zero true))
  else match Number.ofInt? value with
    | some number => some number
    | none => ((Scaled.ofDigits digits []).toBinary64? negative).map .real

/-- The number that an unsigned literal writes. A leading zero stands alone. -/
def unsigned? (negative : Bool) (text : List Char) : Option Number :=
  let whole := text.takeWhile Char.isDigit
  let rest := text.dropWhile Char.isDigit
  if whole.isEmpty ∨ (1 < whole.length ∧ whole.head? = some '0') then none
  else if rest.isEmpty then wholeNumber? negative whole
  else do
    let (fraction, rest) ← fraction? rest
    let exponent ← if rest.isEmpty then some 0 else exponent? rest
    let digits := Scaled.ofDigits whole fraction
    let scaled := { digits with exponent := digits.exponent + exponent }
    (scaled.toBinary64? negative).map .real

/-- The number that a word writes. -/
def number? : List Char → Option Number
  | '-' :: text => unsigned? true text
  | text => unsigned? false text

end MenuPlan.Json

/-
# Decimal text of binary64 numbers

The shortest decimal that reads back as a given binary64 number, and the two ways in which plan
documents and messages write it.

`Binary64.shortest` looks for the coarsest power of ten that has a multiple among the decimals that
round to the number. On that grid only the two neighbours of the number can qualify first, so it
tests these two; of two hits it takes the nearer, and the even one when both are equally near.
-/

import MenuPlan.Number.Binary64

namespace MenuPlan

/- Powers are those of the core library wherever this module is imported. -/
attribute [local instance (2000)] instPowNat

/-- The decimal digits of a natural number, most significant first. -/
def decimalDigits (n : Nat) : List Char :=
  Nat.toDigits 10 n

/-- The decimal text of a natural number. -/
def natText (n : Nat) : String :=
  String.ofList (decimalDigits n)

/-- A decimal `digits * 10 ^ exponent`. -/
structure Decimal where
  digits : Nat
  exponent : Int
deriving DecidableEq, Repr

namespace Binary64

/-- The decimals that round to `x` lie between `lower` and `upper` around `exact`, all three in
quarters of the unit of `x`. The gap below a power of two is half the gap above it. -/
structure Neighbourhood where
  lower : Nat
  exact : Nat
  upper : Nat
  /-- The ends round to `x` as well when its significand is even. -/
  closed : Bool

/-- The decimals around `x`, see `Neighbourhood`. -/
def neighbourhood (x : Binary64) : Neighbourhood where
  lower := 4 * x.significand - if x.significand = 2 ^ (52 : Nat) ∧ 0 < x.shift then 1 else 2
  exact := 4 * x.significand
  upper := 4 * x.significand + 2
  closed := x.significand % 2 == 0

/-- Tests the multiples of `10 ^ power` on both sides of the number. All comparisons are between
natural numbers: `ten` and `unit` are the power of ten and the quarter unit over one common
denominator. -/
def onGrid (x : Binary64) (power : Int) : Option Decimal :=
  let ten := 10 ^ power.toNat * 2 ^ (1076 : Nat)
  let unit := 10 ^ (-power).toNat * 2 ^ x.shift
  let near := x.neighbourhood
  let within (n : Nat) : Bool :=
    if near.closed then near.lower * unit ≤ n * ten ∧ n * ten ≤ near.upper * unit
    else near.lower * unit < n * ten ∧ n * ten < near.upper * unit
  let below := near.exact * unit / ten
  let excess := 2 * (near.exact * unit - below * ten)
  let preferBelow := excess < ten ∨ (excess = ten ∧ below % 2 = 0)
  if within below ∧ (preferBelow ∨ ¬ within (below + 1)) then some ⟨below, power⟩
  else if within (below + 1) then some ⟨below + 1, power⟩
  else none

/-- The first grid with a hit, going down from `power`. -/
def firstGrid (x : Binary64) (power : Int) : Nat → Decimal
  | 0 => ⟨0, 0⟩
  | steps + 1 => (onGrid x power).getD (firstGrid x (power - 1) steps)

/-- The decimal with the fewest digits that reads back as the magnitude of `x`, and of those the
nearest. The bit length gives the leading power of ten up to one step, and seventeen digits always
suffice, so twenty grids are enough. -/
def shortest (x : Binary64) : Decimal :=
  if x.isZero then ⟨0, 0⟩
  else
    let bits : Int := x.significand.log2 + x.shift - 1074
    firstGrid x ((bits + 1) * 30103 / 100000 + 1) 20

end Binary64

namespace Decimal

/-- Positional notation, always with a fraction. -/
def positional (d : Decimal) : List Char :=
  let digits := decimalDigits d.digits
  if 0 ≤ d.exponent then digits ++ List.replicate d.exponent.toNat '0' ++ ['.', '0']
  else
    let places := (-d.exponent).toNat
    if places < digits.length then
      digits.take (digits.length - places) ++ '.' :: digits.drop (digits.length - places)
    else '0' :: '.' :: (List.replicate (places - digits.length) '0' ++ digits)

/-- Exponent notation: one digit, a point and the other digits if there are any, and a signed
exponent. -/
def scientific (d : Decimal) : List Char :=
  let digits := decimalDigits d.digits
  let exponent : Int := d.exponent + digits.length - 1
  let mantissa := match digits with
    | first :: rest@(_ :: _) => first :: '.' :: rest
    | one => one
  mantissa ++ 'e' :: (if 0 ≤ exponent then '+' else '-') :: decimalDigits exponent.natAbs

/-- The power of ten of the leading digit. -/
def magnitude (d : Decimal) : Int :=
  d.exponent + (decimalDigits d.digits).length - 1

end Decimal

namespace Binary64

/-- The sign character of a negative number. -/
def signText (x : Binary64) : List Char :=
  if x.negative then ['-'] else []

/-- The text of a number in a document: positional from `0.00001` up to sixteen digits before the
point, with an exponent outside that range. -/
def text (x : Binary64) : List Char :=
  let d := x.shortest
  x.signText ++ if -5 ≤ d.magnitude ∧ d.magnitude ≤ 15 then d.positional else d.scientific

/-- The text of a number in a message: positional whatever its size. -/
def positionalText (x : Binary64) : List Char :=
  x.signText ++ x.shortest.positional

end Binary64

end MenuPlan

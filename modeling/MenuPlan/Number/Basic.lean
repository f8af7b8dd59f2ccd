/-
# Numbers of a document

A number in a document is an integer of the signed or unsigned 64-bit range, or a finite binary64
number. The two never compare equal: `1` and `1.0` are different values and are written
differently. Integers outside the range are not numbers of this type; each reader says what becomes
of them.
-/

import MenuPlan.Number.Decimal

namespace MenuPlan

/- Powers are those of the core library wherever this module is imported. -/
attribute [local instance (2000)] instPowNat

/-- The integers that a document can hold: from the least signed to the greatest unsigned 64-bit
integer. -/
def InRange (value : Int) : Prop :=
  -2 ^ (63 : Nat) ≤ value ∧ value < 2 ^ (64 : Nat)

instance (value : Int) : Decidable (InRange value) :=
  inferInstanceAs (Decidable (_ ∧ _))

/-- A number of a document. -/
inductive Number where
  | int (value : Int) (inRange : InRange value)
  | real (value : Binary64)
deriving DecidableEq

namespace Number

/-- The integer as a number, if a document can hold it. -/
def ofInt? (value : Int) : Option Number :=
  if inRange : InRange value then some (.int value inRange) else none

/-- The value as a natural number, if it is a non-negative integer. -/
def toNat? : Number → Option Nat
  | .int value _ => if 0 ≤ value then some value.toNat else none
  | .real _ => none

/-- The decimal text of an integer. -/
def intText (value : Int) : List Char :=
  (if value < 0 then ['-'] else []) ++ decimalDigits value.natAbs

/-- The text of a number in a document. -/
def text : Number → List Char
  | .int value _ => intText value
  | .real value => value.text

end Number

end MenuPlan

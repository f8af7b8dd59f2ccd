/-
# Values of scalars

What a scalar stands for. An unquoted scalar without a tag is null, a boolean, an integer or a
number with a fraction when it is written like one, and a string otherwise. The tags of the core
types demand one of these forms; every other tag makes a string.

Integers may be written in four bases with a sign, but not with leading zeros. One that no document
can hold is an error as long as it fits 128 bits; beyond that, decimal notation is read as a
binary64 number. Infinities and NaN have no place in a document and are null.
-/

import MenuPlan.Data.Basic
import MenuPlan.Json.Quoted
import MenuPlan.Yaml.Node

namespace MenuPlan.Yaml

/- Powers are those of the core library wherever this module is imported. -/
attribute [local instance (2000)] instPowNat

/-- What follows a given beginning. -/
def after? (beginning text : List Char) : Option (List Char) :=
  if beginning.isPrefixOf text then some (text.drop beginning.length) else none

/-- The number that digits of a base write. -/
def digits? (base : Nat) (text : List Char) : Option Nat :=
  if text.isEmpty then none
  else text.foldlM (fun n c =>
    match Json.hexValue? c with
    | some digit => if digit < base then some (n * base + digit) else none
    | none => none) 0

/-- Whether a sign comes next. -/
def atSign (text : List Char) : Bool :=
  text.head? = some '+' || text.head? = some '-'

/-- A sign or none, and then a zero with more digits: a string, not a number. -/
def hasLeadingZero (text : List Char) : Bool :=
  match if atSign text then text.tail else text with
  | '0' :: rest@(_ :: _) => rest.all Char.isDigit
  | _ => false

/-- The integer in one of the bases that are marked by a letter. -/
def markedDigits? (text : List Char) : Option Nat :=
  ((after? ['0', 'x'] text).bind (digits? 16)).or
    (((after? ['0', 'o'] text).bind (digits? 8)).or
      ((after? ['0', 'b'] text).bind (digits? 2)))

/-- The magnitude of an integer without its sign. -/
def magnitude? (text unsigned : List Char) : Option Nat :=
  (markedDigits? unsigned).or (if hasLeadingZero text then none else digits? 10 unsigned)

/-- The integer that a scalar writes, of any size. -/
def integer? (text : List Char) : Option Int :=
  match text with
  | '-' :: unsigned => (magnitude? text unsigned).map fun n => -(n : Int)
  | '+' :: unsigned => (magnitude? text unsigned).map Int.ofNat
  | unsigned => (magnitude? text unsigned).map Int.ofNat

/-- The integers that fit 128 bits, signed or unsigned. -/
def FitsWide (value : Int) : Prop :=
  -2 ^ (127 : Nat) ≤ value ∧ value < 2 ^ (128 : Nat)

instance (value : Int) : Decidable (FitsWide value) :=
  inferInstanceAs (Decidable (_ ∧ _))

/-- The exponent of a decimal, nothing being zero. -/
def exponent? : List Char → Option Int
  | [] => some 0
  | e :: rest =>
      if e = 'e' ∨ e = 'E' then
        match rest with
        | '-' :: digits => (digits? 10 digits).map fun n => -(n : Int)
        | '+' :: digits => (digits? 10 digits).map Int.ofNat
        | digits => (digits? 10 digits).map Int.ofNat
      else none

/-- The binary64 number nearest to an unsigned decimal: digits with a point anywhere among them, and
an exponent if there is one. -/
def decimal? (negative : Bool) (text : List Char) : Option Binary64 := do
  let whole := text.takeWhile Char.isDigit
  let rest := text.dropWhile Char.isDigit
  let behindPoint := after? ['.'] rest
  let fraction := (behindPoint.getD []).takeWhile Char.isDigit
  let rest := behindPoint.elim rest (List.dropWhile Char.isDigit)
  let digits ← digits? 10 (whole ++ fraction)
  let exponent ← exponent? rest
  Binary64.ofDecimal negative digits (exponent - fraction.length)

/-- A number with a fraction, or what stands for an infinity or NaN. -/
inductive Fractional where
  | finite (value : Binary64)
  | notFinite

/-- The spellings of infinity without a sign. -/
def infinities : List String := [".inf", ".Inf", ".INF"]

/-- The spellings of NaN. -/
def notNumbers : List String := [".nan", ".NaN", ".NAN"]

/-- The number that a scalar writes as a decimal. -/
def fractional? (text : List Char) : Option Fractional :=
  let unsigned := if atSign text then text.tail else text
  if infinities.contains (String.ofList unsigned) || notNumbers.contains (String.ofList text) then
    some .notFinite
  else (decimal? (text.head? = some '-') unsigned).map .finite

namespace Fractional

/-- The value in a document. -/
def toData : Fractional → Data
  | finite value => .number (.real value)
  | notFinite => .null

end Fractional

/-- The spellings of null. -/
def isNull (text : String) : Bool :=
  ["~", "null", "Null", "NULL"].contains text

/-- The boolean that a scalar writes. -/
def boolean? (text : String) : Option Bool :=
  if ["true", "True", "TRUE"].contains text then some true
  else if ["false", "False", "FALSE"].contains text then some false
  else none

/-- An integer as a value, if a document can hold it. -/
def ofInteger? (value : Int) : Option Data :=
  (Number.ofInt? value).map .number

/-- The value of a plain scalar without a tag; none for an integer that is out of range. -/
def plainValue? (text : String) : Option Data :=
  let characters := text.toList
  if text = "" ∨ isNull text then some .null
  else match boolean? text with
    | some b => some (.bool b)
    | none =>
        match (integer? characters).filter fun n => decide (FitsWide n) with
        | some n => ofInteger? n
        | none =>
            if hasLeadingZero characters then some (.string text)
            else (((fractional? characters).map Fractional.toData).getD (.string text))

/-- The value of a scalar; none if it does not have the form that its tag demands. Types of some
application are unknown here. -/
def scalarValue? (tag : Option Tag) (text : String) (plain : Bool) : Option Data :=
  match tag with
  | none | some .undecodable => if plain then plainValue? text else some (.string text)
  | some .bool => (boolean? text).map .bool
  | some .int => (integer? text.toList).bind ofInteger?
  | some .float => (fractional? text.toList).map Fractional.toData
  | some .null => if isNull text then some .null else none
  | some .application => none
  | some .other => some (.string text)

end MenuPlan.Yaml

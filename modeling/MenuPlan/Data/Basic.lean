/-
# Plain data

The values that configuration documents consist of: null, booleans, numbers, strings, arrays and
objects whose members keep the order in which they were written. Text in either notation (`Json`,
`Yaml`) is read into this type, and plans are turned back into it before they are written.

Objects are lists of members. `Data.Distinct` says that no object, at any depth, has two members
with one name; both readers produce only such values, the last member with a name winning at the
place of the first. `Data.depth` counts nested arrays and objects, which is what the limits of the
readers are about.
-/

import MenuPlan.Fields
import MenuPlan.Number.Basic

namespace MenuPlan

/-- A value of a document. -/
inductive Data where
  | null
  | bool (value : Bool)
  | number (value : Number)
  | string (value : String)
  | array (items : List Data)
  | object (members : List (String × Data))

namespace Data

instance : Inhabited Data := ⟨.null⟩

/-- What follows for a value from its items or members holds of every value. -/
@[elab_as_elim]
theorem valueInduction {motive : Data → Prop} (null : motive .null)
    (bool : ∀ value, motive (.bool value)) (number : ∀ value, motive (.number value))
    (string : ∀ value, motive (.string value))
    (array : ∀ items, (∀ item ∈ items, motive item) → motive (.array items))
    (object : ∀ members, (∀ member ∈ members, motive member.2) → motive (.object members))
    (value : Data) : motive value := by
  match value with
  | .null => exact null
  | .bool value => exact bool value
  | .number value => exact number value
  | .string value => exact string value
  | .array items =>
      apply array
      intro item member
      have smaller := List.sizeOf_lt_of_mem member
      exact valueInduction null bool number string array object item
  | .object members =>
      apply object
      intro entry member
      have smaller : sizeOf entry.2 < sizeOf members := by
        have inList := List.sizeOf_lt_of_mem member
        obtain ⟨name, inner⟩ := entry
        simp only [Prod.mk.sizeOf_spec] at inList ⊢
        omega
      exact valueInduction null bool number string array object entry.2
termination_by sizeOf value

mutual

/-- Equality of values is decidable, member order included. -/
def decEq : (x y : Data) → Decidable (x = y)
  | .null, .null => isTrue rfl
  | .bool a, .bool b => decidable_of_iff (a = b) (by simp)
  | .number a, .number b => decidable_of_iff (a = b) (by simp)
  | .string a, .string b => decidable_of_iff (a = b) (by simp)
  | .array a, .array b =>
      have := decEqItems a b
      decidable_of_iff (a = b) (by simp)
  | .object a, .object b =>
      have := decEqMembers a b
      decidable_of_iff (a = b) (by simp)
  | .null, .bool _ | .null, .number _ | .null, .string _ | .null, .array _ | .null, .object _ =>
      isFalse nofun
  | .bool _, .null | .bool _, .number _ | .bool _, .string _ | .bool _, .array _
  | .bool _, .object _ => isFalse nofun
  | .number _, .null | .number _, .bool _ | .number _, .string _ | .number _, .array _
  | .number _, .object _ => isFalse nofun
  | .string _, .null | .string _, .bool _ | .string _, .number _ | .string _, .array _
  | .string _, .object _ => isFalse nofun
  | .array _, .null | .array _, .bool _ | .array _, .number _ | .array _, .string _
  | .array _, .object _ => isFalse nofun
  | .object _, .null | .object _, .bool _ | .object _, .number _ | .object _, .string _
  | .object _, .array _ => isFalse nofun

/-- Equality of lists of values is decidable. -/
def decEqItems : (xs ys : List Data) → Decidable (xs = ys)
  | [], [] => isTrue rfl
  | [], _ :: _ | _ :: _, [] => isFalse nofun
  | x :: xs, y :: ys =>
      have := decEq x y
      have := decEqItems xs ys
      decidable_of_iff (x = y ∧ xs = ys) (by simp)

/-- Equality of lists of members is decidable. -/
def decEqMembers : (xs ys : List (String × Data)) → Decidable (xs = ys)
  | [], [] => isTrue rfl
  | [], _ :: _ | _ :: _, [] => isFalse nofun
  | (k, x) :: xs, (l, y) :: ys =>
      have := decEq x y
      have := decEqMembers xs ys
      decidable_of_iff ((k = l ∧ x = y) ∧ xs = ys) (by simp)

end

instance : DecidableEq Data := decEq

mutual

/-- How many arrays and objects lie around the innermost value. -/
def depth : Data → Nat
  | .array items => depthItems items + 1
  | .object members => depthMembers members + 1
  | .null | .bool _ | .number _ | .string _ => 0

/-- The greatest depth of an item. -/
def depthItems : List Data → Nat
  | [] => 0
  | item :: rest => max (depth item) (depthItems rest)

/-- The greatest depth of a member's value. -/
def depthMembers : List (String × Data) → Nat
  | [] => 0
  | (_, value) :: rest => max (depth value) (depthMembers rest)

end

mutual

/-- No object in the value has two members with one name. -/
def Distinct : Data → Prop
  | .array items => DistinctItems items
  | .object members => Fields.Distinct members ∧ DistinctMembers members
  | .null | .bool _ | .number _ | .string _ => True

/-- No item holds an object with a repeated name. -/
def DistinctItems : List Data → Prop
  | [] => True
  | item :: rest => Distinct item ∧ DistinctItems rest

/-- No member's value holds an object with a repeated name. -/
def DistinctMembers : List (String × Data) → Prop
  | [] => True
  | (_, value) :: rest => Distinct value ∧ DistinctMembers rest

end

/-- The object with these members, a repeated name keeping its first place and its last value. -/
def ofMembers (members : List (String × Data)) : Data :=
  .object (Fields.ofEntries members)

/-- The member of an object, none for any other value. -/
def member? (value : Data) (name : String) : Option Data :=
  match value with
  | .object members => Fields.get? members name
  | _ => none

/-- The integer as a value; one that no document can hold is null. -/
def ofNat (n : Nat) : Data :=
  (Number.ofInt? n).elim .null .number

end Data

end MenuPlan

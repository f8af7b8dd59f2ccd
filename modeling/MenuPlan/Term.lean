/-
# Terms

The values of a plan. A string that begins with `@` in a configuration is an expression for whoever
carries out the plan, and `@@` writes a literal `@`; all else means itself. `Term.ofData` resolves
this everywhere in a value, and `Term.toData` writes a term into a plan, where expressions and
references become objects with a single marked key.
-/

import MenuPlan.Data.Basic

namespace MenuPlan

/-- A value of a plan. -/
inductive Term where
  /-- A value that means itself. -/
  | literal (value : Data)
  | sequence (items : List Term)
  | mapping (entries : List (String × Term))
  /-- An object that is known by its id. -/
  | reference (id : String)
  /-- The source of an expression. -/
  | expression (source : String)

namespace Term

instance : Inhabited Term := ⟨.literal .null⟩

/-- A literal string. -/
def text (s : String) : Term :=
  literal (.string s)

/-- The string of a literal string. -/
def text? : Term → Option String
  | literal (.string s) => some s
  | _ => none

/-- Whether the term is a sequence, resolved or literal. -/
def isSequence : Term → Bool
  | sequence _ | literal (.array _) => true
  | _ => false

/-- The arguments that a term stands for: the items of a sequence, or the term alone. -/
def arguments : Term → List Term
  | sequence items => items
  | literal (.array items) => items.map literal
  | other => [other]

/-- The character that marks an expression, and its own escape. -/
def marker : Char := '@'

/-- The meaning of a string. -/
def ofText (s : String) : Term :=
  match s.toList with
  | [] => text s
  | first :: rest =>
      if first ≠ marker then text s
      else if rest.head? = some marker then text (String.ofList rest)
      else expression (String.ofList rest)

mutual

/-- The meaning of a value. -/
def ofData : Data → Term
  | .array items => sequence (ofItems items)
  | .object members => mapping (ofMembers members)
  | .string s => ofText s
  | .null => literal .null
  | .bool b => literal (.bool b)
  | .number n => literal (.number n)

/-- The meaning of each item. -/
def ofItems : List Data → List Term
  | [] => []
  | item :: rest => ofData item :: ofItems rest

/-- The meaning of each member. -/
def ofMembers : List (String × Data) → List (String × Term)
  | [] => []
  | (name, value) :: rest => (name, ofData value) :: ofMembers rest

end

mutual

/-- A term as data. -/
def toData : Term → Data
  | literal value => value
  | sequence items => .array (itemsToData items)
  | mapping entries => .object (entriesToData entries)
  | reference id => .object [("$reference", .string id)]
  | expression source => .object [("$expression", .string source)]

/-- Terms as data. -/
def itemsToData : List Term → List Data
  | [] => []
  | item :: rest => toData item :: itemsToData rest

/-- Named terms as data. -/
def entriesToData : List (String × Term) → List (String × Data)
  | [] => []
  | (name, term) :: rest => (name, toData term) :: entriesToData rest

end

end Term

end MenuPlan

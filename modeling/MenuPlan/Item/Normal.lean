/-
# The long form of items

A configuration may name a route or a service by a string, leave out children or a whole item by
null, and so on; `Item.expand` writes all this out, at every level. `Item.normalize` reads an item
from data: the data must obey the grammar, then its long form is read as a record. Data that obeys
the grammar always reads, so a failure is one of the grammar.
-/

import MenuPlan.Item.Grammar
import MenuPlan.Item.Record
import MenuPlan.Report

namespace MenuPlan

namespace Item

/-- The record that a name in place of a record stands for. -/
def expandName (field : String) : Data → Data
  | .string name => .object [(field, .string name)]
  | other => other

mutual

/-- The long form of an item. What is not an item stays as it is. -/
def expand : Data → Data
  | .null => .object []
  | .object members => .object (expandMembers members)
  | other => other

/-- The long form of an item's members. -/
def expandMembers : List (String × Data) → List (String × Data)
  | [] => []
  | (name, value) :: rest =>
      (if name = "route" then (name, expandName "name" value)
        else if name = "service" then (name, expandName "id" value)
        else if name = "children" then (name, expandChildren value)
        else (name, value)) :: expandMembers rest

/-- The long form of the items below an item. -/
def expandChildren : Data → Data
  | .null => .object []
  | .object entries => .object (expandEntries entries)
  | other => other

/-- The long form of each item. -/
def expandEntries : List (String × Data) → List (String × Data)
  | [] => []
  | (name, value) :: rest => (name, expand value) :: expandEntries rest

end

/-- Checks data against a grammar. -/
def check (grammar : Grammar) (location : String) (raw : Data) : Except CompileError Unit :=
  match grammar.fault? raw with
  | some fault => .error (.validation location fault.message)
  | none => .ok ()

/-- Reads an item in long form, blaming the location for a mismatch. -/
def ofExpanded (location : String) (expanded : Data) : Except CompileError Item :=
  match read expanded with
  | .ok item => .ok item
  | .error mismatch => .error (.validation location mismatch.message)

/-- The item that data describes. -/
def normalize (strict : Bool) (location : String) (raw : Data) : Except CompileError Item := do
  check (.item strict) location raw
  ofExpanded location (expand raw)

end Item

namespace Breadcrumb

/-- The name of the parent in the long form of a breadcrumb. -/
def parent? (expanded : Data) : Option String :=
  match expanded.member? "parent" with
  | some (.string parent) => some parent
  | _ => none

/-- The long form of a breadcrumb without its parent. -/
def withoutParent : Data → Data
  | .object members => .object (Fields.erase members "parent")
  | other => other

/-- The breadcrumb that data describes. -/
def normalize (strict : Bool) (location : String) (raw : Data) :
    Except CompileError Breadcrumb := do
  Item.check (.breadcrumb strict) location raw
  let expanded := Item.expand raw
  let item ← Item.ofExpanded location (withoutParent expanded)
  return { parent := parent? expanded, item }

end Breadcrumb

end MenuPlan

/-
# Items

A navigation item as it is after reading: where it leads, what provides it, what lies below it, and
all other keys that were set on it. An item with a service or a non-empty expression is provided
from outside, and then nothing else about it matters for a plan.
-/

import MenuPlan.Data.Basic

namespace MenuPlan

/-- The route that an item leads to. -/
structure Route where
  name : String
  parameters : Fields Data := []
  /-- A boolean, or an expression in a string. -/
  absolute : Data := .bool false
deriving DecidableEq

/-- The service that provides an item. -/
structure Service where
  id : String
  method : Option String := none
  parameters : Option Data := none
deriving DecidableEq

/-- The factory method of a service, if it is set and not empty. -/
def Service.factoryMethod (service : Service) : Option String :=
  service.method.filter (· ≠ "")

/-- A navigation item. -/
structure Item where
  /-- Options of the factory, which the item's own keys override. -/
  options : Fields Data := []
  route : Option Route := none
  service : Option Service := none
  expression : Option String := none
  /-- The items below this one, in document order. -/
  children : List (String × Item) := []
  /-- All other keys of the item, in document order. -/
  attributes : Fields Data := []

namespace Item

instance : Inhabited Item := ⟨{}⟩

/-- What follows for an item from its children holds of every item. -/
@[elab_as_elim]
theorem treeInduction {motive : Item → Prop}
    (step : ∀ item : Item, (∀ entry ∈ item.children, motive entry.2) → motive item)
    (item : Item) : motive item := by
  apply step
  intro entry member
  have smaller : sizeOf entry.2 < sizeOf item := by
    obtain ⟨options, route, service, expression, children, attributes⟩ := item
    have inList := List.sizeOf_lt_of_mem member
    obtain ⟨name, child⟩ := entry
    simp only [mk.sizeOf_spec, Prod.mk.sizeOf_spec] at inList ⊢
    omega
  exact treeInduction step entry.2
termination_by sizeOf item

/-- The expression that provides an item, if it is set and not empty. -/
def source (item : Item) : Option String :=
  item.expression.filter (· ≠ "")

/-- The keys that decide how an item is built, of those that are set. The first one wins. -/
def drivingKeys (item : Item) : List String :=
  (if item.service.isSome then ["service"] else [])
    ++ (if item.source.isSome then ["expression"] else [])
    ++ (if item.children.isEmpty then [] else ["children"])

/-- The names of the keys that are not attributes. -/
def ownKeys : List String := ["options", "route", "service", "expression", "children"]

end Item

/-- A breadcrumb: an item and the name of the breadcrumb above it, if there is one. -/
structure Breadcrumb where
  parent : Option String := none
  item : Item := {}

end MenuPlan

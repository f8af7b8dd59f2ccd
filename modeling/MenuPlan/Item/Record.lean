/-
# Items as records

Reading an item from data that is already in long form. The members are read in the order in which
they are written; the first one that does not fit is reported.
-/

import MenuPlan.Item.Basic
import MenuPlan.Record

namespace MenuPlan

namespace Route

/-- The fields of a route. -/
def recordType : RecordType where
  title := "struct RouteConfig"
  fields := [⟨"name", .text, .required⟩, ⟨"parameters", .map, .defaulted⟩,
    ⟨"absolute", .anything, .defaulted⟩]

/-- Reads a route. -/
def read (value : Data) : Except Mismatch Route := do
  let members ← recordType.read value
  return {
    name := Fields.textAt members "name"
    parameters := Fields.mapAt members "parameters"
    absolute := (Fields.get? members "absolute").getD (.bool false) }

end Route

namespace Service

/-- The fields of a service. -/
def recordType : RecordType where
  title := "struct ServiceConfig"
  fields := [⟨"id", .text, .required⟩, ⟨"method", .optionalText, .defaulted⟩,
    ⟨"parameters", .anything, .defaulted⟩]

/-- Reads a service. -/
def read (value : Data) : Except Mismatch Service := do
  let members ← recordType.read value
  return {
    id := Fields.textAt members "id"
    method := Fields.optionalTextAt members "method"
    parameters := Fields.valueAt members "parameters" }

end Service

/-- Reads a value where null stands for none. -/
def readOptional {α : Type} (read : Data → Except Mismatch α) : Data → Except Mismatch (Option α)
  | .null => .ok none
  | value => some <$> read value

namespace Item

mutual

/-- Reads an item. -/
def read : Data → Except Mismatch Item
  | .object members => readMembers {} members
  | other => .error (.wrongType other "struct ItemConfig")

/-- Reads the members of an item into what has been read of it. -/
def readMembers (item : Item) : List (String × Data) → Except Mismatch Item
  | [] => .ok item
  | ("options", value) :: rest => do
      readMembers { item with options := ← value.map? } rest
  | ("route", value) :: rest => do
      readMembers { item with route := ← readOptional Route.read value } rest
  | ("service", value) :: rest => do
      readMembers { item with service := ← readOptional Service.read value } rest
  | ("expression", value) :: rest => do
      readMembers { item with expression := ← value.optionalText? } rest
  | ("children", .object entries) :: rest => do
      readMembers { item with children := ← readChildren entries } rest
  | ("children", value) :: _ => .error (.wrongType value "a map")
  | (name, value) :: rest =>
      readMembers { item with attributes := item.attributes ++ [(name, value)] } rest

/-- Reads the items below an item. -/
def readChildren : List (String × Data) → Except Mismatch (List (String × Item))
  | [] => .ok []
  | (name, value) :: rest => do
      let child ← read value
      return (name, child) :: (← readChildren rest)

end

end Item

end MenuPlan

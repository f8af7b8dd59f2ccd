/-
# The grammar of items

Which data may describe an item. `Shape` is a small language of conditions on a value,
`Grammar.item` gives one for each key of an item, and `Grammar.itemSchema` and
`Grammar.breadcrumbSchema` write the grammar as schema documents.

`Grammar.fault?` finds the first fault of a value. A strict grammar refuses unknown keys and reports
the faults of an item in the order of its own keys; a lenient one accepts unknown keys and reports
them in the order of the grammar. Faults of the items below an item are faults of its `children`.
-/

import MenuPlan.Data.Basic
import MenuPlan.Json.Writer

namespace MenuPlan

/-- The kinds of values that a shape can ask for, in the order in which messages name them. -/
inductive Kind where
  | boolean
  | null
  | object
  | string
deriving DecidableEq

namespace Kind

/-- All kinds, in the order of messages. -/
def all : List Kind := [boolean, null, object, string]

/-- The name of a kind. -/
def name : Kind → String
  | boolean => "boolean"
  | null => "null"
  | object => "object"
  | string => "string"

/-- Whether a value is of a kind. -/
def includes : Kind → Data → Bool
  | null, .null => true
  | boolean, .bool _ => true
  | string, .string _ => true
  | object, .object _ => true
  | _, _ => false

end Kind

/-- A condition on a value. -/
inductive Shape where
  | anything
  | kinds (allowed : List Kind)
  | nonEmptyText
  /-- An object with these members only, of which one must be present. -/
  | record (required : String) (members : List (String × Shape))
  /-- Exactly one of the alternatives. -/
  | oneOf (alternatives : List Shape)
  /-- Null, or an object of items. -/
  | children

namespace Shape

mutual

/-- Whether a value that is not an item's `children` has a shape. -/
def accepts : Shape → Data → Bool
  | anything, _ => true
  | kinds allowed, value => allowed.any (·.includes value)
  | nonEmptyText, .string text => text ≠ ""
  | nonEmptyText, _ => false
  | record required members, .object entries =>
      (Fields.get? entries required).isSome && acceptsMembers members entries
  | record _ _, _ => false
  | oneOf alternatives, value => acceptCount alternatives value == 1
  | children, value => Kind.null.includes value || Kind.object.includes value

/-- How many of the shapes accept a value. -/
def acceptCount : List Shape → Data → Nat
  | [], _ => 0
  | shape :: rest, value => (accepts shape value).toNat + acceptCount rest value

/-- Whether all entries are among the members and have their shapes. -/
def acceptsMembers : List (String × Shape) → Fields Data → Bool
  | [], entries => entries.isEmpty
  | (name, shape) :: rest, entries =>
      (entries.all fun entry => entry.1 ≠ name || accepts shape entry.2)
        && acceptsMembers rest (Fields.erase entries name)

end

end Shape

/-- What can be wrong with the value of a key. -/
inductive Fault where
  | wrongKind (value : Data) (allowed : List Kind)
  | noAlternative (value : Data)
  | unknownKey (name : String)
deriving DecidableEq

namespace Fault

/-- The text of a report. A single allowed kind is named alone, several in the order of messages. -/
def message : Fault → String
  | wrongKind value [kind] => Json.compact value ++ " is not of type \"" ++ kind.name ++ "\""
  | wrongKind value allowed =>
      let names := (Kind.all.filter fun kind => allowed.contains kind).map fun kind =>
        "\"" ++ kind.name ++ "\""
      Json.compact value ++ " is not of types " ++ String.intercalate ", " names
  | noAlternative value =>
      Json.compact value ++ " is not valid under any of the schemas listed in the 'oneOf' keyword"
  | unknownKey name => s!"Additional properties are not allowed ('{name}' was unexpected)"

end Fault

/-- The shapes of an item's keys, and whether other keys are refused. -/
structure Grammar where
  strict : Bool
  /-- The keys of the item itself. -/
  keys : List (String × Shape)
  /-- The keys of the items below it. -/
  below : List (String × Shape)

namespace Grammar

/-- A string or null. -/
def optionalText : Shape := .kinds [.string, .null]

/-- An object. -/
def map : Shape := .kinds [.object]

/-- What a reference may be: a name, a record that names its subject under `required`, or null. -/
def alternatives (required : String) (members : List (String × Shape)) : List Shape :=
  [.nonEmptyText, .record required ((required, .nonEmptyText) :: members), .kinds [.null]]

/-- A reference to a subject. -/
def reference (required : String) (members : List (String × Shape)) : Shape :=
  .oneOf (alternatives required members)

/-- The keys that an item may have. -/
def itemKeys : List (String × Shape) := [
  ("label", optionalText),
  ("uri", optionalText),
  ("translationDomain", optionalText),
  ("attributes", map),
  ("linkAttributes", map),
  ("childrenAttributes", map),
  ("labelAttributes", map),
  ("extras", map),
  ("display", .kinds [.boolean]),
  ("displayChildren", .kinds [.boolean]),
  ("current", .kinds [.boolean, .null]),
  ("options", map),
  ("route", reference "name" [("parameters", map), ("absolute", .kinds [.boolean, .string])]),
  ("service", reference "id" [("method", optionalText), ("parameters", .anything)]),
  ("expression", optionalText),
  ("children", .children)]

/-- The grammar of items. -/
def item (strict : Bool) : Grammar where
  strict
  keys := itemKeys
  below := itemKeys

/-- The grammar of breadcrumbs: items that may name a parent. The items below them may not. -/
def breadcrumb (strict : Bool) : Grammar where
  strict
  keys := itemKeys ++ [("parent", optionalText)]
  below := itemKeys

/-- Picks the fault to be reported from those of an item's keys, which are given in the order of the
item. -/
def first (strict : Bool) (keys : List (String × Shape)) (faults : List (String × Fault)) :
    Option Fault :=
  if strict then faults.head?.map Prod.snd
  else keys.findSome? fun key => faults.lookup key.1

/-- The fault of a value with a shape that is not `children`. -/
def shapeFault? (shape : Shape) (value : Data) : Option Fault :=
  if shape.accepts value then none
  else match shape with
    | .kinds allowed => some (.wrongKind value allowed)
    | .nonEmptyText => some (.wrongKind value [.string])
    | .record _ _ => some (.wrongKind value [.object])
    | .children => some (.wrongKind value [.object, .null])
    | .oneOf _ | .anything => some (.noAlternative value)

mutual

/-- The first fault of an item, given the shapes of its keys and of those below. -/
def itemFault? (strict : Bool) (keys below : List (String × Shape)) : Data → Option Fault
  | .null => none
  | .object members => first strict keys (memberFaults strict keys below members)
  | other => some (.wrongKind other [.object, .null])

/-- The faults of an item's keys, in the order in which they are written. -/
def memberFaults (strict : Bool) (keys below : List (String × Shape)) :
    List (String × Data) → List (String × Fault)
  | [] => []
  | (name, value) :: rest =>
      let faults := memberFaults strict keys below rest
      match keyFault? strict below name (keys.lookup name) value with
      | some fault => (name, fault) :: faults
      | none => faults

/-- The fault of the value of a key, given its shape if the key is known. -/
def keyFault? (strict : Bool) (below : List (String × Shape)) (name : String) :
    Option Shape → Data → Option Fault
  | none, _ => if strict then some (.unknownKey name) else none
  | some .children, .object items => childFault? strict below items
  | some shape, value => shapeFault? shape value

/-- The first fault among the items below an item. -/
def childFault? (strict : Bool) (below : List (String × Shape)) :
    List (String × Data) → Option Fault
  | [] => none
  | (_, value) :: rest =>
      (itemFault? strict below below value).or (childFault? strict below rest)

end

/-- The first fault of a value. -/
def fault? (grammar : Grammar) (value : Data) : Option Fault :=
  itemFault? grammar.strict grammar.keys grammar.below value

end Grammar

/-! ## The grammar as a schema document -/

namespace Shape

/-- The name of a single kind, or the list of names. -/
def kindsToData : List Kind → Data
  | [kind] => .string kind.name
  | allowed => .array (allowed.map fun kind => .string kind.name)

mutual

/-- A shape as a schema document. -/
def toData : Shape → Data
  | anything => .bool true
  | kinds allowed => .object [("type", kindsToData allowed)]
  | nonEmptyText => .object [("type", .string "string"), ("minLength", Data.ofNat 1)]
  | record required members => .object [
      ("type", .string "object"),
      ("required", .array [.string required]),
      ("additionalProperties", .bool false),
      ("properties", .object (membersToData members))]
  | oneOf alternatives => .object [("oneOf", .array (alternativesToData alternatives))]
  | children => .object [
      ("type", kindsToData [.object, .null]),
      ("additionalProperties", .object [("$ref", .string "#/$defs/item")])]

/-- Shapes as schema documents. -/
def alternativesToData : List Shape → List Data
  | [] => []
  | shape :: rest => toData shape :: alternativesToData rest

/-- Named shapes as schema documents. -/
def membersToData : List (String × Shape) → List (String × Data)
  | [] => []
  | (name, shape) :: rest => (name, toData shape) :: membersToData rest

end

end Shape

namespace Grammar

/-- The schema of an item with these keys. -/
def definition (strict : Bool) (keys : List (String × Shape)) : List (String × Data) := [
  ("type", Shape.kindsToData [.object, .null]),
  ("additionalProperties", .bool !strict),
  ("properties", .object (Shape.membersToData keys))]

/-- The schema document of items. -/
def itemSchema (strict : Bool) : Data :=
  .object [
    ("$defs", .object [("item", .object (definition strict itemKeys))]),
    ("$ref", .string "#/$defs/item")]

/-- The schema document of breadcrumbs. -/
def breadcrumbSchema (strict : Bool) : Data :=
  let grammar := breadcrumb strict
  .object (definition strict grammar.keys
    ++ [("$defs", .object [("item", .object (definition strict grammar.below))])])

end Grammar

end MenuPlan

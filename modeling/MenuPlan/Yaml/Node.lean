/-
# Nodes of a YAML document

The tree that the tokens of a document write. Aliases are still in it: a node with an anchor carries
a number, and an alias carries the number of the anchor that it refers to. Mapping keys are nodes of
any kind at this stage, and scalars are text with what is known about their type.
-/

import MenuPlan.Yaml.Token

namespace MenuPlan.Yaml

/-- What a tag says about the type of a node. -/
inductive Tag where
  | bool
  | int
  | float
  | null
  /-- A tag that begins with an exclamation mark, or consists of it: a type of some application. -/
  | application
  /-- Such a tag whose bytes are not UTF-8. -/
  | undecodable
  /-- Any other tag. -/
  | other
deriving DecidableEq, Repr

namespace Tag

/-- The beginning of the tags of the core types. -/
def coreNamespace : String := "tag:yaml.org,2002:"

/-- The tag with these bytes. -/
def ofBytes (bytes : List UInt8) : Tag :=
  match String.fromUTF8? ⟨bytes.toArray⟩ with
  | none => if bytes.head? = some '!'.toNat.toUInt8 then undecodable else other
  | some text =>
      if text.toList.head? = some '!' then application
      else if text = coreNamespace ++ "bool" then bool
      else if text = coreNamespace ++ "int" then int
      else if text = coreNamespace ++ "float" then float
      else if text = coreNamespace ++ "null" then null
      else other

end Tag

/-- What stands before the content of a node. -/
structure Properties where
  anchor : Option Nat := none
  tag : Option Tag := none
deriving DecidableEq, Repr

/-- A node of a document. -/
inductive Node where
  | aliasOf (anchor : Nat)
  | scalar (properties : Properties) (text : String) (plain : Bool)
  | sequence (properties : Properties) (items : List Node)
  | mapping (properties : Properties) (entries : List (Node × Node))

namespace Node

/-- The node of an omitted value. -/
def empty : Node :=
  scalar {} "" true

mutual

/-- How many scalars, aliases and collection boundaries the node consists of. -/
def size : Node → Nat
  | aliasOf _ | scalar _ _ _ => 1
  | sequence _ items => sizeItems items + 2
  | mapping _ entries => sizeEntries entries + 2

/-- The sizes of items together. -/
def sizeItems : List Node → Nat
  | [] => 0
  | item :: rest => size item + sizeItems rest

/-- The sizes of keys and values together. -/
def sizeEntries : List (Node × Node) → Nat
  | [] => 0
  | (key, value) :: rest => size key + size value + sizeEntries rest

end

/-- The node with its number, if it has an anchor. -/
def anchoredBy (properties : Properties) (node : Node) : List (Nat × Node) :=
  properties.anchor.toList.map fun anchor => (anchor, node)

mutual

/-- The anchored nodes in the order in which they begin. -/
def anchored : Node → List (Nat × Node)
  | aliasOf _ => []
  | scalar properties text plain => anchoredBy properties (scalar properties text plain)
  | sequence properties items =>
      anchoredBy properties (sequence properties items) ++ anchoredItems items
  | mapping properties entries =>
      anchoredBy properties (mapping properties entries) ++ anchoredEntries entries

/-- The anchored nodes within items. -/
def anchoredItems : List Node → List (Nat × Node)
  | [] => []
  | item :: rest => anchored item ++ anchoredItems rest

/-- The anchored nodes within keys and values. -/
def anchoredEntries : List (Node × Node) → List (Nat × Node)
  | [] => []
  | (key, value) :: rest => anchored key ++ anchored value ++ anchoredEntries rest

end

end Node

end MenuPlan.Yaml

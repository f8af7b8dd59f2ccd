/-
# Configuration documents

A configuration document lists menus and breadcrumbs by name. A menu has options, items and other
keys; its items, and the breadcrumbs, are kept as data until they are compiled.
-/

import MenuPlan.Record
import MenuPlan.Report
import MenuPlan.Yaml.Reader

namespace MenuPlan

/-- A menu as it is written. -/
structure Menu where
  options : Fields Data := []
  items : Fields Data := []
  /-- All other keys of the menu, in document order. -/
  attributes : Fields Data := []
deriving DecidableEq

namespace Menu

/-- Reads the members of a menu into what has been read of it. -/
def readMembers (menu : Menu) : List (String × Data) → Except Mismatch Menu
  | [] => .ok menu
  | ("options", value) :: rest => do
      readMembers { menu with options := ← value.map? } rest
  | ("items", value) :: rest => do
      readMembers { menu with items := ← value.map? } rest
  | (name, value) :: rest =>
      readMembers { menu with attributes := menu.attributes ++ [(name, value)] } rest

/-- Reads a menu. -/
def read : Data → Except Mismatch Menu
  | .object members => readMembers {} members
  | other => .error (.wrongType other "struct MenuSpec")

end Menu

/-- A configuration document. -/
structure Outline where
  menus : Fields Menu := []
  breadcrumbs : Fields Data := []
deriving DecidableEq

namespace Outline

/-- The keys of a document. -/
def keys : List String := ["menus", "breadcrumbs"]

/-- Reads the menus of a document. -/
def readMenus (value : Data) : Except Mismatch (Fields Menu) := do
  (← value.map?).mapM fun (name, menu) => return (name, ← Menu.read menu)

/-- Reads the members of a document into what has been read of it. -/
def readMembers (outline : Outline) : List (String × Data) → Except Mismatch Outline
  | [] => .ok outline
  | ("menus", value) :: rest => do
      readMembers { outline with menus := ← readMenus value } rest
  | ("breadcrumbs", value) :: rest => do
      readMembers { outline with breadcrumbs := ← value.map? } rest
  | (name, _) :: _ => .error (.unknownField name keys)

/-- The document whose root is given. Null is the empty document. -/
def ofData : Data → Except CompileError Outline
  | .null => .ok {}
  | .object members =>
      match readMembers {} members with
      | .ok outline => .ok outline
      | .error mismatch => .error (.validation "document" mismatch.message)
  | _ => .error (.parse "document root must be a mapping")

/-- What is reported of a text that is not YAML. -/
def malformed : String := "the text is not a well-formed document"

/-- The document that a text writes. JSON text is YAML as well. -/
def parse (text : String) : Except CompileError Outline :=
  match Yaml.read? text with
  | some root => ofData root
  | none => .error (.parse malformed)

end Outline

end MenuPlan

/-
# Settings of a compilation

The names that a plan is written with, and whether items may have unknown keys.
-/

import MenuPlan.Instruction.Basic

namespace MenuPlan

/-- The settings of a compilation. -/
structure Settings where
  /-- What the keys of plan entries begin with. -/
  keySpace : String := "navigation"
  /-- The tag under which menus and breadcrumbs are registered. -/
  aliasTag : String := "navigation.menu"
  /-- The factory of items. -/
  itemFactory : FactoryRef := ⟨"navigation.menu_factory", "createItem"⟩
  /-- The type of what the factory of items makes. -/
  itemType : String := "menu_item"
  /-- The type of what services make. -/
  serviceType : String := "object"
  /-- Whether unknown keys of items are refused. -/
  strictItems : Bool := true
deriving DecidableEq

namespace Settings

/-- The key of a menu in a plan. -/
def menuKey (settings : Settings) (name : String) : String :=
  settings.keySpace ++ ".menu." ++ name

/-- The key of a breadcrumb in a plan. -/
def breadcrumbKey (settings : Settings) (name : String) : String :=
  settings.keySpace ++ ".breadcrumbs." ++ name

/-- The instruction to make an item with these attributes. Children are attached by calls, so they
are no attribute. -/
def itemCall (settings : Settings) (name : String) (attributes : Fields Term) : Instruction :=
  .factoryCall settings.itemType settings.itemFactory
    [.value (.text name), .value (.mapping (Fields.erase attributes "children"))]

/-- The instruction to make the root of a menu or trail, registered under a name as its alias. -/
def rootCall (settings : Settings) (name : String) (attributes : Fields Term) : Instruction :=
  (settings.itemCall "root" attributes).withAlias settings.aliasTag name

end Settings

end MenuPlan

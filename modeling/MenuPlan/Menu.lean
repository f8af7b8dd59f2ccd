/-
# From menus to instructions

A menu becomes a root item under its alias, with its items attached in document order. The items are
read one after another; the first that does not obey the grammar stops the menu, and the remarks
made up to there remain.
-/

import MenuPlan.Item.Instruction
import MenuPlan.Item.Normal
import MenuPlan.Outline

namespace MenuPlan

/-- What comes of a step of a compilation: a result or an error, and the remarks made on the way. -/
structure Outcome (α : Type) where
  result : Except CompileError α
  raised : List Warning := []

namespace Menu

/-- The location of an item of a menu. -/
def itemLocation (menu item : String) : String :=
  "menus." ++ menu ++ ".items." ++ item

/-- The attributes of a menu's root: its options, overridden by its other keys. -/
def rootAttributes (menu : Menu) : Fields Term :=
  Fields.overlay (Term.ofMembers menu.options) (Term.ofMembers menu.attributes)

/-- The calls that attach the items of a menu. -/
def itemCalls (settings : Settings) (menu : String) : List (String × Data) → Outcome (List Call)
  | [] => { result := .ok [] }
  | (name, raw) :: rest =>
      let location := itemLocation menu name
      match Item.normalize settings.strictItems location raw with
      | .error error => { result := .error error }
      | .ok item =>
          let later := itemCalls settings menu rest
          { result := (Call.addChild name (item.instruction settings name) :: ·) <$> later.result
            raised := item.warnings location ++ later.raised }

/-- What a menu becomes. -/
def instruction (settings : Settings) (name : String) (menu : Menu) : Outcome Instruction :=
  let calls := itemCalls settings name menu.items
  let root := settings.rootCall name menu.rootAttributes
  { calls with result := (fun calls => { root with calls }) <$> calls.result }

end Menu

end MenuPlan

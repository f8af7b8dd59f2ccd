/-
# Builders that remember their remarks

`Item.instruction`, `Menu.instruction` and `Trail.linkAll` say what one item, one menu or one map of
breadcrumbs becomes and what there is to remark. A builder answers one request after another. It
tells its remarks as it goes into a log that it keeps for all requests, where a remark that is
already there is not told again. A request that fails leaves the log as far as it has been told.
-/

import MenuPlan.Trail

namespace MenuPlan

/-- A step that tells remarks: it goes on with the log that it finds. -/
abbrev Telling := StateM (List Warning)

/-- A step that tells remarks and can fail. The log outlives a failure. -/
abbrev Building := ExceptT CompileError Telling

/-- Tells a remark that has not been told before. -/
def Warning.tell (warning : Warning) : Telling Unit :=
  modify fun known => if warning ∈ known then known else known ++ [warning]

/-- Tells remarks one after another. -/
def Warning.tellAll (warnings : List Warning) : Telling Unit :=
  warnings.forM tell

namespace Item

mutual

/-- Builds what an item becomes under a name, and remarks on what is at its location. -/
def build (settings : Settings) (location name : String) : Item → Telling Instruction
  | ⟨options, route, service, expression, children, attributes⟩ => do
      Warning.tellAll
        (precedenceWarnings location ⟨options, route, service, expression, children, attributes⟩)
      match service with
      | some service =>
          Warning.tellAll (service.warnings location)
          return service.instruction settings
      | none =>
          match expression.filter (· ≠ "") with
          | some source => return .expression source
          | none =>
              let calls ← buildChildren settings location children
              return assemble settings name
                (flatAttributes ⟨options, route, none, expression, [], attributes⟩) calls

/-- Builds the calls that attach the items below a location. -/
def buildChildren (settings : Settings) (location : String) :
    List (String × Item) → Telling (List Call)
  | [] => return []
  | (name, child) :: rest => do
      let instruction ← build settings (location ++ ".children." ++ name) name child
      return .addChild name instruction :: (← buildChildren settings location rest)

end

end Item

namespace Menu

/-- Builds the calls that attach the items of a menu. -/
def buildItems (settings : Settings) (menu : String) : List (String × Data) → Building (List Call)
  | [] => return []
  | (name, raw) :: rest => do
      let location := itemLocation menu name
      let item ← Item.normalize settings.strictItems location raw
      let instruction ← item.build settings location name
      return .addChild name instruction :: (← buildItems settings menu rest)

/-- Builds what a menu becomes. -/
def build (settings : Settings) (name : String) (menu : Menu) : Building Instruction := do
  let root := settings.rootCall name menu.rootAttributes
  return { root with calls := ← buildItems settings name menu.items }

end Menu

namespace Trail

/-- Builds the calls for the breadcrumbs on the way from one of them to the top, given those that
have not been visited and the names on the way so far, last first. A breadcrumb is built before its
parent is looked up. -/
def buildClimb (settings : Settings) (all remaining : Fields Breadcrumb) (visited : List String)
    (name : String) (breadcrumb : Breadcrumb) : Building (List Call) := do
  let node ← breadcrumb.item.build settings (location name) name
  match breadcrumb.parent with
  | none => return [.addChild name node]
  | some parent =>
      match _ : Fields.get? remaining parent with
      | some next =>
          let above ← buildClimb settings all (Fields.erase remaining parent) (parent :: visited)
            parent next
          return .addChild name node :: above
      | none =>
          if (Fields.get? all parent).isSome then
            throw (.circularReference name visited.reverse)
          else throw (.missingParent parent name)
termination_by remaining.length
decreasing_by exact length_erase_lt remaining parent (by simp [*])

/-- Builds what a breadcrumb becomes. -/
def build (settings : Settings) (all : Fields Breadcrumb) (name : String)
    (breadcrumb : Breadcrumb) : Building Instruction := do
  let calls ← buildClimb settings all (Fields.erase all name) [name] name breadcrumb
  return { settings.rootCall name [] with calls := calls.reverse }

/-- Builds the trails of some entries. -/
def buildEntries (settings : Settings) (all : Fields Breadcrumb) :
    List (String × Breadcrumb) → Building (Fields Instruction)
  | [] => return []
  | (name, breadcrumb) :: rest => do
      let instruction ← build settings all name breadcrumb
      return (name, instruction) :: (← buildEntries settings all rest)

/-- Builds the trails of all breadcrumbs. -/
def buildAll (settings : Settings) (all : Fields Breadcrumb) : Building (Fields Instruction) :=
  buildEntries settings all all

end Trail

/-- What a builder of menus can be asked for: an item that has been read, or a menu as it is
written. -/
inductive BuildRequest where
  | item (name : String) (read : Item)
  | menu (name : String) (written : Menu)

/-- Answers a request. -/
def BuildRequest.answer (settings : Settings) : BuildRequest → Building Instruction
  | .item name read => read.build settings name name
  | .menu name written => written.build settings name

/-- Answers requests one after another with one log, whether they fail or not. -/
def Building.serve {ρ α : Type} (answer : ρ → Building α) (requests : List ρ) :
    Telling (List (Except CompileError α)) :=
  requests.mapM fun request => (answer request).run

end MenuPlan

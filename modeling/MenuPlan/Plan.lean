/-
# Plans

A plan maps keys to instructions: first the menus, then the trails of the breadcrumbs, both in
document order. A compilation succeeds as a whole or reports its first error; with the plan come the
remarks made on the way, those on menus before those on breadcrumbs, each only once.
-/

import MenuPlan.Instruction.ToData
import MenuPlan.Menu
import MenuPlan.Trail

namespace MenuPlan

/-- A plan: instructions by key. -/
abbrev Plan := Fields Instruction

namespace Plan

/-- A plan as data. -/
def toData (plan : Plan) : Data :=
  .object (Fields.mapValues Instruction.toData plan)

/-- The entries that menus contribute. -/
def menuEntries (settings : Settings) : List (String × Menu) → Outcome (List (String × Instruction))
  | [] => { result := .ok [] }
  | (name, menu) :: rest =>
      let root := menu.instruction settings name
      match root.result with
      | .error error => { result := .error error, raised := root.raised }
      | .ok instruction =>
          let later := menuEntries settings rest
          { result := ((settings.menuKey name, instruction) :: ·) <$> later.result
            raised := root.raised ++ later.raised }

/-- The breadcrumbs of a document. -/
def readBreadcrumbs (settings : Settings) (breadcrumbs : Fields Data) :
    Except CompileError (Fields Breadcrumb) :=
  breadcrumbs.mapM fun (name, raw) =>
    return (name, ← Breadcrumb.normalize settings.strictItems (Trail.location name) raw)

/-- The entries that trails contribute. -/
def trailEntries (settings : Settings) (trails : Fields Instruction) :
    List (String × Instruction) :=
  trails.map fun (name, trail) => (settings.breadcrumbKey name, trail)

end Plan

/-- A plan with the remarks made while compiling it. -/
structure Compiled where
  plan : Plan
  warnings : List Warning

namespace Compiled

/-- A compilation's result as data. -/
def toData (compiled : Compiled) : Data :=
  .object [
    ("plan", compiled.plan.toData),
    ("warnings", .array (compiled.warnings.map Warning.toData))]

end Compiled

namespace Outline

/-- Compiles a document. -/
def compile (settings : Settings) (outline : Outline) : Except CompileError Compiled := do
  let menus := Plan.menuEntries settings outline.menus
  let menuEntries ← menus.result
  let breadcrumbs ← Plan.readBreadcrumbs settings outline.breadcrumbs
  let trails := Trail.linkAll settings breadcrumbs
  let trailEntries := Plan.trailEntries settings (← trails.result)
  return {
    plan := Fields.ofEntries (menuEntries ++ trailEntries)
    warnings := Warning.collect [] menus.raised ++ Warning.collect [] trails.raised }

/-- Compiles the document that a text writes. -/
def compileText (settings : Settings) (text : String) : Except CompileError Compiled := do
  compile settings (← parse text)

end Outline

end MenuPlan

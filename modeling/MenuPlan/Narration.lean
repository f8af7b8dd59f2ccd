/-
# What a compilation tells

The events of a compilation, in the order in which they happen. A compilation that fails has told
what happened up to its first error. The grammar of items is made when the first item or breadcrumb
is read, and told once for each strictness in a process; remarks and the summary come at the end,
when nothing can fail any more.

Telling changes nothing: the events are a function of the settings and the document, beside the
compilation itself.
-/

import MenuPlan.Log.Event
import MenuPlan.Plan

namespace MenuPlan.Narration

open MenuPlan.Log (Event)

/-- The target of a part of the compiler. -/
def target (part : String) : String :=
  "navigation_compiler::" ++ part

/-- The grammar of items has been made. -/
def grammarMade (settings : Settings) : Event where
  level := .debug
  target := target "schema"
  message := some "building item schema tree"
  fields := [("strict", .flag settings.strictItems)]
  once := true

/-- A menu has been compiled. -/
def menuCompiled (name : String) (menu : Menu) : Event where
  level := .debug
  target := target "compile"
  message := some "compiled menu"
  fields := [("menu", .plain name), ("items", .count menu.items.length)]

/-- A breadcrumb has been linked to its ancestors. -/
def breadcrumbLinked (name : String) (trail : Instruction) : Event where
  level := .trace
  target := target "breadcrumb"
  message := some "linked breadcrumb"
  fields := [("breadcrumb", .plain name), ("depth", .count trail.calls.length)]

/-- A trail has been put into the plan. -/
def breadcrumbCompiled (name : String) (trail : Instruction) : Event where
  level := .debug
  target := target "compile"
  message := some "compiled breadcrumb"
  fields := [("breadcrumb", .plain name), ("depth", .count trail.calls.length)]

/-- There is a remark. -/
def remarked (warning : Warning) : Event where
  level := .warn
  target := target "compile"
  message := some warning.message
  fields := [("code", .plain warning.code), ("location", .quoted (warning.location.getD ""))]

/-- The compilation has succeeded. -/
def finished (outline : Outline) (compiled : Compiled) : Event where
  level := .info
  target := target "compile"
  message := some "compilation finished"
  fields := [
    ("menus", .count outline.menus.length),
    ("breadcrumbs", .count outline.breadcrumbs.length),
    ("entries", .count compiled.plan.length),
    ("warnings", .count compiled.warnings.length)]

/-- What is told when values are read with the grammar of items. -/
def reading {α : Type} (settings : Settings) (values : List α) : List Event :=
  if values.isEmpty then [] else [grammarMade settings]

/-- What is told of menus. -/
def ofMenus (settings : Settings) : List (String × Menu) → List Event
  | [] => []
  | (name, menu) :: rest =>
      reading settings menu.items ++
        match (menu.instruction settings name).result with
        | .ok _ => menuCompiled name menu :: ofMenus settings rest
        | .error _ => []

/-- What is told while breadcrumbs are linked. -/
def ofTrails (settings : Settings) (all : Fields Breadcrumb) :
    List (String × Breadcrumb) → List Event
  | [] => []
  | (name, breadcrumb) :: rest =>
      match (Trail.link settings all name breadcrumb).result with
      | .ok trail => breadcrumbLinked name trail :: ofTrails settings all rest
      | .error _ => []

/-- What is told of breadcrumbs. -/
def ofBreadcrumbs (settings : Settings) (breadcrumbs : Fields Data) : List Event :=
  reading settings breadcrumbs ++
    match Plan.readBreadcrumbs settings breadcrumbs with
    | .error _ => []
    | .ok all =>
        ofTrails settings all all ++
          match (Trail.linkAll settings all).result with
          | .ok trails => trails.map fun (name, trail) => breadcrumbCompiled name trail
          | .error _ => []

/-- What is told of a document. -/
def ofOutline (settings : Settings) (outline : Outline) : List Event :=
  ofMenus settings outline.menus ++
    match (Plan.menuEntries settings outline.menus).result with
    | .error _ => []
    | .ok _ =>
        ofBreadcrumbs settings outline.breadcrumbs ++
          match outline.compile settings with
          | .ok compiled => compiled.warnings.map remarked ++ [finished outline compiled]
          | .error _ => []

/-- What is told of the document that a text writes. -/
def ofText (settings : Settings) (text : String) : List Event :=
  match Outline.parse text with
  | .ok outline => ofOutline settings outline
  | .error _ => []

end MenuPlan.Narration

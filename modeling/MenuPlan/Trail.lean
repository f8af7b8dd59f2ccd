/-
# Trails of breadcrumbs

A breadcrumb becomes a root item whose children are its ancestors, outermost first, and finally the
breadcrumb itself. `Trail.climb` follows parents from one breadcrumb to the top. The climb ends at
the latest when all breadcrumbs have been visited: a parent that has not been visited is taken out
of those that remain, and one that is not among them is either unknown or already on the path.

Every trail is climbed on its own, so an ancestor that belongs to several trails is built for each.
-/

import MenuPlan.Item.Instruction
import MenuPlan.Item.Normal
import MenuPlan.Menu

namespace MenuPlan

/-- A climb from a breadcrumb towards the top. -/
structure Climb where
  /-- The breadcrumbs met, in the order of the climb. -/
  path : List (String × Breadcrumb)
  /-- Why the climb did not reach the top, if it did not. -/
  obstacle : Option CompileError

namespace Trail

/-- Taking a known name out leaves fewer entries. -/
theorem length_erase_lt {α : Type} (entries : Fields α) (name : String)
    (present : (Fields.get? entries name).isSome) :
    (Fields.erase entries name).length < entries.length := by
  rw [Fields.get?_isSome_iff] at present
  obtain ⟨entry, inEntries, isName⟩ := List.mem_map.mp present
  exact List.length_filter_lt_length_iff_exists.mpr ⟨entry, inEntries, by simp [isName]⟩

/-- Climbs from a breadcrumb, given those that have not been visited and the names on the path so
far, last first. -/
def climb (all remaining : Fields Breadcrumb) (visited : List String) (name : String)
    (breadcrumb : Breadcrumb) : Climb :=
  match breadcrumb.parent with
  | none => ⟨[(name, breadcrumb)], none⟩
  | some parent =>
      match _ : Fields.get? remaining parent with
      | some next =>
          let rest := climb all (Fields.erase remaining parent) (parent :: visited) parent next
          { rest with path := (name, breadcrumb) :: rest.path }
      | none =>
          let obstacle :=
            if (Fields.get? all parent).isSome then
              CompileError.circularReference name visited.reverse
            else .missingParent parent name
          ⟨[(name, breadcrumb)], some obstacle⟩
termination_by remaining.length
decreasing_by exact length_erase_lt remaining parent (by simp [*])

/-- The climb from an entry of a map of breadcrumbs. -/
def climbFrom (all : Fields Breadcrumb) (name : String) (breadcrumb : Breadcrumb) : Climb :=
  climb all (Fields.erase all name) [name] name breadcrumb

/-- The location of a breadcrumb. -/
def location (name : String) : String :=
  "breadcrumbs." ++ name

/-- The remarks on the breadcrumbs of a path. -/
def pathWarnings (path : List (String × Breadcrumb)) : List Warning :=
  path.flatMap fun (name, breadcrumb) => breadcrumb.item.warnings (location name)

/-- The instruction for a path that has reached the top. -/
def ofPath (settings : Settings) (name : String) (path : List (String × Breadcrumb)) :
    Instruction :=
  let calls := path.reverse.map fun (name, breadcrumb) =>
    Call.addChild name (breadcrumb.item.instruction settings name)
  { settings.rootCall name [] with calls }

/-- What a breadcrumb becomes. -/
def link (settings : Settings) (all : Fields Breadcrumb) (name : String)
    (breadcrumb : Breadcrumb) : Outcome Instruction :=
  let ⟨path, obstacle⟩ := climbFrom all name breadcrumb
  { result := obstacle.elim (.ok (ofPath settings name path)) .error
    raised := pathWarnings path }

/-- The trails of some entries, stopping at the first that does not reach the top. -/
def linkEntries (settings : Settings) (all : Fields Breadcrumb) :
    List (String × Breadcrumb) → Outcome (Fields Instruction)
  | [] => { result := .ok [] }
  | (name, breadcrumb) :: rest =>
      let trail := link settings all name breadcrumb
      match trail.result with
      | .error error => { result := .error error, raised := trail.raised }
      | .ok instruction =>
          let later := linkEntries settings all rest
          { result := ((name, instruction) :: ·) <$> later.result
            raised := trail.raised ++ later.raised }

/-- The trails of all breadcrumbs, in their order. -/
def linkAll (settings : Settings) (all : Fields Breadcrumb) : Outcome (Fields Instruction) :=
  linkEntries settings all all

end Trail

end MenuPlan

/-
# From items to instructions

What an item becomes in a plan, and what there is to remark about it.

An item with a service or an expression becomes just that, and the rest of the item is passed over.
Any other item is its attributes; with children it is made by the factory of items and the children
are attached to it. The attributes are the resolved options, overridden by the item's own keys,
which are taken literally, and those again by the parts of its route.

Remarks are made in the order of the tree, an item before its children, and none below an item that
is provided from outside.
-/

import MenuPlan.Item.Basic
import MenuPlan.Report
import MenuPlan.Settings

namespace MenuPlan

namespace Route

/-- The attributes that a route contributes. -/
def attributes (route : Route) : Fields Term := [
  ("route", .ofText route.name),
  ("routeParameters", .mapping (Term.ofMembers route.parameters)),
  ("routeAbsolute", .ofData route.absolute)]

end Route

namespace Service

/-- What a service becomes: a call of its factory method with the parameters as arguments, or the
service itself. -/
def instruction (settings : Settings) (service : Service) : Instruction :=
  match service.factoryMethod with
  | some method =>
      let arguments := service.parameters.elim [] fun parameters =>
        (Term.ofData parameters).arguments.map Argument.value
      .factoryCall settings.serviceType ⟨service.id, method⟩ arguments
  | none => .serviceReference service.id

/-- Remarks on a service: parameters are of no use without a method. -/
def warnings (location : String) (service : Service) : List Warning :=
  if service.factoryMethod.isNone ∧ service.parameters.isSome then
    [{ code := "W2031"
       message := s!"service '{service.id}' has parameters but no method; parameters are ignored"
       location := some location }]
  else []

end Service

namespace Item

/-- The attributes of an item. What drives its construction is no attribute, even when it comes from
the options. -/
def flatAttributes (item : Item) : Fields Term :=
  let own := Fields.mapValues Term.literal item.attributes
  let route := item.route.elim [] Route.attributes
  let merged := Fields.overlay (Fields.overlay (Term.ofMembers item.options) own) route
  Fields.erase (Fields.erase merged "children") "expression"

/-- What an item with these attributes and attached children becomes. -/
def assemble (settings : Settings) (name : String) (attributes : Fields Term)
    (children : List Call) : Instruction :=
  if children.isEmpty then .plainMap attributes
  else { settings.itemCall name attributes with calls := children }

mutual

/-- What an item becomes under a name. -/
def instruction (settings : Settings) (name : String) : Item → Instruction
  | ⟨options, route, service, expression, children, attributes⟩ =>
      match service with
      | some service => service.instruction settings
      | none =>
          match expression.filter (· ≠ "") with
          | some source => .expression source
          | none =>
              assemble settings name
                (flatAttributes ⟨options, route, none, expression, [], attributes⟩)
                (childCalls settings children)

/-- The calls that attach children. -/
def childCalls (settings : Settings) : List (String × Item) → List Call
  | [] => []
  | (name, child) :: rest =>
      .addChild name (instruction settings name child) :: childCalls settings rest

end

/-- Children are attached in their order, each by one call. -/
theorem childCalls_eq_map (settings : Settings) (children : List (String × Item)) :
    childCalls settings children =
      children.map fun entry => .addChild entry.1 (instruction settings entry.1 entry.2) := by
  induction children with
  | nil => rfl
  | cons entry rest ih => rw [childCalls, ih, List.map_cons]

/-- A service decides what an item becomes. -/
theorem instruction_of_service (settings : Settings) (name : String) {item : Item}
    {service : Service} (provided : item.service = some service) :
    instruction settings name item = service.instruction settings := by
  cases item
  cases provided
  rw [instruction]

/-- Without a service, an expression decides. -/
theorem instruction_of_source (settings : Settings) (name : String) {item : Item} {source : String}
    (noService : item.service = none) (isSource : item.source = some source) :
    instruction settings name item = .expression source := by
  cases item
  cases noService
  rw [Item.source] at isSource
  rw [instruction, isSource]

/-- An item that nothing provides is assembled from its attributes and children. -/
theorem instruction_of_own (settings : Settings) (name : String) {item : Item}
    (noService : item.service = none) (noSource : item.source = none) :
    instruction settings name item =
      assemble settings name item.flatAttributes (childCalls settings item.children) := by
  cases item
  cases noService
  rw [Item.source] at noSource
  rw [instruction, noSource]
  rfl

/-- The remark that keys are passed over for the sake of the first one. -/
def precedenceWarning (location winner : String) (ignored : List String) : Warning :=
  let all := String.intercalate ", " (winner :: ignored)
  let rest := String.intercalate ", " (ignored.map fun key => "'" ++ key ++ "'")
  { code := "W2030"
    message := s!"item sets {all}; '{winner}' takes precedence and {rest} ignored"
    location := some location }

/-- Remarks on the keys of an item: only one of them can drive its construction. -/
def precedenceWarnings (location : String) (item : Item) : List Warning :=
  match item.drivingKeys with
  | winner :: ignored@(_ :: _) => [precedenceWarning location winner ignored]
  | _ => []

mutual

/-- The remarks on an item and on what lies below it. -/
def warnings (location : String) : Item → List Warning
  | ⟨options, route, service, expression, children, attributes⟩ =>
      precedenceWarnings location ⟨options, route, service, expression, children, attributes⟩
        ++ match service with
          | some service => service.warnings location
          | none =>
              if (expression.filter (· ≠ "")).isSome then []
              else childWarnings location children

/-- The remarks on the items below a location. -/
def childWarnings (location : String) : List (String × Item) → List Warning
  | [] => []
  | (name, child) :: rest =>
      warnings (location ++ ".children." ++ name) child ++ childWarnings location rest

end

end Item

end MenuPlan

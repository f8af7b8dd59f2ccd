/-
# Instructions mirror items

`Mirrors` says in rules of its own which instruction belongs to an item: a service comes before an
expression, an expression before children, and whatever does not drive the construction shows up as
an attribute or not at all. The main result is that an item becomes the one instruction that mirrors
the item after pruning, where everything has been cut away from an item that a service or an
expression provides. So nothing that was cut away has a part in the instruction, at any depth.

The attributes themselves are those of `Item.flatAttributes`, about which nothing is claimed here
but that no `children` are among them.
-/

import MenuPlan.Item.Instruction

namespace MenuPlan

/-- No text: it is absent or empty. -/
def IsBlank (text : Option String) : Prop :=
  text = none ∨ text = some ""

namespace Instruction

/-- The instruction refers to an object that exists elsewhere. -/
def IsReference (instruction : Instruction) : Prop :=
  (∃ id, instruction.origin = .serviceReference id) ∨
    ∃ source, instruction.origin = .expression source

end Instruction

namespace Call

/-- The call that attaches a child: the name comes first unless the child is a reference. -/
inductive Attaches (name : String) (child : Instruction) : Call → Prop where
  | reference (isReference : child.IsReference) :
      Attaches name child { method := "addChild", arguments := [.instruction child] }
  | named (noReference : ¬ child.IsReference) :
      Attaches name child { method := "addChild"
                            arguments := [.value (.literal (.string name)), .instruction child] }

end Call

namespace Service

/-- The arguments that a service passes to its factory: the items of an array one by one, any other
value as a single argument. -/
inductive Passes : Option Data → List Argument → Prop where
  | nothing : Passes none []
  | spread (items : List Data) :
      Passes (some (.array items)) (items.map fun item => .value (Term.ofData item))
  | single {value : Data} (noArray : ∀ items, value ≠ .array items) :
      Passes (some value) [.value (Term.ofData value)]

end Service

namespace Item

mutual

/-- The instruction that belongs to an item under a name. -/
inductive Mirrors (settings : Settings) : String → Item → Instruction → Prop where
  | factory {name : String} {item : Item} {service : Service} {method : String}
      {arguments : List Argument} (provided : item.service = some service)
      (isMethod : service.method = some method) (nonEmpty : method ≠ "")
      (passes : Service.Passes service.parameters arguments) :
      Mirrors settings name item
        { origin := .factoryCall settings.serviceType ⟨service.id, method⟩ arguments }
  | service {name : String} {item : Item} {service : Service}
      (provided : item.service = some service) (noMethod : IsBlank service.method) :
      Mirrors settings name item { origin := .serviceReference service.id }
  | expression {name : String} {item : Item} {source : String} (noService : item.service = none)
      (isSource : item.expression = some source) (nonEmpty : source ≠ "") :
      Mirrors settings name item { origin := .expression source }
  | node {name : String} {item : Item} {calls : List Call} (noService : item.service = none)
      (noSource : IsBlank item.expression) (hasChildren : item.children ≠ [])
      (attached : MirrorsChildren settings item.children calls) :
      Mirrors settings name item
        { origin := .factoryCall settings.itemType settings.itemFactory
            [.value (.literal (.string name)), .value (.mapping item.flatAttributes)]
          calls := calls }
  | leaf {name : String} {item : Item} (noService : item.service = none)
      (noSource : IsBlank item.expression) (noChildren : item.children = []) :
      Mirrors settings name item { origin := .plainMap item.flatAttributes }

/-- One call for each child, in their order, that attaches the instruction of the child. -/
inductive MirrorsChildren (settings : Settings) : List (String × Item) → List Call → Prop where
  | nil : MirrorsChildren settings [] []
  | cons {name : String} {child : Item} {instruction : Instruction} {call : Call}
      {children : List (String × Item)} {calls : List Call}
      (mirrored : Mirrors settings name child instruction)
      (attaches : Call.Attaches name instruction call)
      (rest : MirrorsChildren settings children calls) :
      MirrorsChildren settings ((name, child) :: children) (call :: calls)

end

mutual

/-- The item with nothing left on any item that a service or an expression provides but that service
or expression. -/
def pruned : Item → Item
  | ⟨options, route, service, expression, children, attributes⟩ =>
      match service with
      | some service => { service := some service }
      | none =>
          match expression.filter (· ≠ "") with
          | some source => { expression := some source }
          | none => ⟨options, route, none, expression, prunedChildren children, attributes⟩

/-- The children, pruned. -/
def prunedChildren : List (String × Item) → List (String × Item)
  | [] => []
  | (name, child) :: rest => (name, pruned child) :: prunedChildren rest

end

/-- A text that is not blank is what remains of it without the empty one. -/
theorem filter_nonEmpty_eq_some_iff {text : Option String} {value : String} :
    text.filter (· ≠ "") = some value ↔ text = some value ∧ value ≠ "" := by
  rw [Option.filter_eq_some_iff, decide_eq_true_iff]

theorem filter_nonEmpty_eq_none_iff {text : Option String} :
    text.filter (· ≠ "") = none ↔ IsBlank text := by
  rw [Option.filter_eq_none_iff, IsBlank]
  cases text with
  | none => simp
  | some text => simp

/-- Instructions that know their name are the references. -/
theorem isNamed_iff_isReference (instruction : Instruction) :
    instruction.origin.isNamed = true ↔ instruction.IsReference := by
  rw [Instruction.IsReference]
  cases instruction.origin with
  | factoryCall _ _ _ => simp [Origin.isNamed]
  | serviceReference id => simp [Origin.isNamed]
  | expression source => simp [Origin.isNamed]
  | plainMap _ => simp [Origin.isNamed]

/-- A call attaches a child exactly if it is the call that is made for it. -/
theorem attaches_iff (name : String) (child : Instruction) (call : Call) :
    Call.Attaches name child call ↔ Call.addChild name child = call := by
  rw [Call.addChild]
  by_cases isReference : child.IsReference
  · rw [if_pos ((isNamed_iff_isReference child).mpr isReference)]
    constructor
    · rintro (_ | noReference)
      · rfl
      · exact absurd isReference noReference
    · rintro rfl
      exact Call.Attaches.reference isReference
  · rw [if_neg fun isNamed => isReference ((isNamed_iff_isReference child).mp isNamed)]
    constructor
    · rintro (found | _)
      · exact absurd found isReference
      · rfl
    · rintro rfl
      exact Call.Attaches.named isReference

/-- Resolving items is resolving each. -/
theorem ofItems_eq_map (items : List Data) : Term.ofItems items = items.map Term.ofData := by
  induction items with
  | nil => rfl
  | cons item rest ih => rw [Term.ofItems, ih, List.map_cons]

/-- A term that is no sequence is a single argument. -/
theorem arguments_ofData_of_noArray {value : Data} (noArray : ∀ items, value ≠ .array items) :
    (Term.ofData value).arguments = [Term.ofData value] := by
  cases value with
  | array items => exact absurd rfl (noArray items)
  | string text =>
      rw [Term.ofData, Term.ofText]
      split
      · rfl
      · split
        · rfl
        · split
          · rfl
          · rfl
  | null | bool _ | number _ | object _ => rw [Term.ofData]; rfl

/-- The arguments of a service are those that the rules ask for. -/
theorem passes_iff (parameters : Option Data) (arguments : List Argument) :
    Service.Passes parameters arguments ↔
      (parameters.elim [] fun parameters =>
        (Term.ofData parameters).arguments.map Argument.value) = arguments := by
  cases parameters with
  | none =>
      constructor
      · rintro ⟨⟩
        rfl
      · rintro rfl
        exact Service.Passes.nothing
  | some value =>
      rw [Option.elim]
      by_cases isArray : ∃ items, value = .array items
      · obtain ⟨items, rfl⟩ := isArray
        have spread : (Term.ofData (.array items)).arguments.map Argument.value =
            items.map fun item => .value (Term.ofData item) := by
          rw [Term.ofData, Term.arguments, ofItems_eq_map, List.map_map]
          rfl
        rw [spread]
        constructor
        · rintro (_ | _ | noArray)
          · rfl
          · exact absurd rfl (noArray items)
        · rintro rfl
          exact Service.Passes.spread items
      · have noArray : ∀ items, value ≠ .array items := not_exists.mp isArray
        rw [arguments_ofData_of_noArray noArray]
        constructor
        · rintro (_ | items | _)
          · exact absurd rfl (noArray items)
          · rfl
        · rintro rfl
          exact Service.Passes.single noArray

variable {settings : Settings}

/-- What drives the construction of an item is none of its attributes. -/
theorem children_notMem_flatAttributes (item : Item) :
    "children" ∉ Fields.names item.flatAttributes := by
  simp [flatAttributes, Fields.names_erase]

theorem expression_notMem_flatAttributes (item : Item) :
    "expression" ∉ Fields.names item.flatAttributes := by
  simp [flatAttributes, Fields.names_erase]

/-- `children` is no attribute, so the call that makes an item need not leave it out. -/
theorem erase_flatAttributes (item : Item) :
    Fields.erase item.flatAttributes "children" = item.flatAttributes :=
  Fields.erase_of_notMem (children_notMem_flatAttributes item)

theorem childCalls_ne_nil {children : List (String × Item)} (hasChildren : children ≠ []) :
    childCalls settings children ≠ [] := by
  rw [childCalls_eq_map]
  intro isNil
  exact hasChildren (List.map_eq_nil_iff.mp isNil)

/-- An item with children is made by the factory of items. -/
theorem assemble_flatAttributes (name : String) (item : Item) {calls : List Call}
    (hasCalls : calls ≠ []) :
    assemble settings name item.flatAttributes calls =
      { origin := .factoryCall settings.itemType settings.itemFactory
          [.value (.literal (.string name)), .value (.mapping item.flatAttributes)]
        calls := calls } := by
  rw [assemble, if_neg (by simpa using hasCalls), Settings.itemCall, erase_flatAttributes]
  rfl

/-- Calls for children follow the rules if the instruction of each child does. -/
theorem mirrorsChildren_childCalls {children : List (String × Item)}
    (each : ∀ entry ∈ children, ∀ name, Mirrors settings name entry.2
      (entry.2.instruction settings name)) :
    MirrorsChildren settings children (childCalls settings children) := by
  induction children with
  | nil => exact MirrorsChildren.nil
  | cons entry rest ih =>
      have first := each entry List.mem_cons_self entry.1
      have later := ih fun other member => each other (List.mem_cons_of_mem _ member)
      exact MirrorsChildren.cons first ((attaches_iff _ _ _).mpr rfl) later

/-- What an item becomes mirrors the item. -/
theorem mirrors_instruction (settings : Settings) (name : String) (item : Item) :
    Mirrors settings name item (item.instruction settings name) := by
  induction item using treeInduction generalizing name with
  | step item ih =>
    cases provided : item.service with
    | some service =>
        rw [instruction_of_service settings name provided, Service.instruction]
        cases isMethod : service.factoryMethod with
        | some method =>
            rw [Service.factoryMethod, filter_nonEmpty_eq_some_iff] at isMethod
            exact Mirrors.factory provided isMethod.1 isMethod.2 ((passes_iff _ _).mpr rfl)
        | none =>
            rw [Service.factoryMethod, filter_nonEmpty_eq_none_iff] at isMethod
            exact Mirrors.service provided isMethod
    | none =>
        cases isSource : item.source with
        | some source =>
            rw [instruction_of_source settings name provided isSource]
            rw [Item.source, filter_nonEmpty_eq_some_iff] at isSource
            exact Mirrors.expression provided isSource.1 isSource.2
        | none =>
            rw [instruction_of_own settings name provided isSource]
            rw [Item.source, filter_nonEmpty_eq_none_iff] at isSource
            cases children : item.children with
            | nil => exact Mirrors.leaf provided isSource children
            | cons first rest =>
                have attached := mirrorsChildren_childCalls ih
                have hasChildren : item.children ≠ [] := by
                  rw [children]
                  exact List.cons_ne_nil _ _
                rw [← children, assemble_flatAttributes name item (childCalls_ne_nil hasChildren)]
                exact Mirrors.node provided isSource hasChildren attached

/-- Calls that follow the rules are the calls that are made, if this holds of each child. -/
theorem MirrorsChildren.childCalls_eq {children : List (String × Item)} {calls : List Call}
    (each : ∀ entry ∈ children, ∀ name built, Mirrors settings name entry.2 built →
      entry.2.instruction settings name = built)
    (mirrors : MirrorsChildren settings children calls) :
    childCalls settings children = calls := by
  induction children generalizing calls with
  | nil =>
      cases mirrors
      rfl
  | cons entry rest ih =>
      cases mirrors with
      | cons mirrored attaches later =>
          rw [childCalls, each _ List.mem_cons_self _ _ mirrored, (attaches_iff _ _ _).mp attaches,
            ih (fun other member => each other (List.mem_cons_of_mem _ member)) later]

/-- Nothing else mirrors an item. The cases are those of the rules, each of which fixes what decides
about the item. -/
theorem Mirrors.instruction_eq {name : String} {item : Item} {built : Instruction}
    (mirrors : Mirrors settings name item built) : item.instruction settings name = built := by
  induction item using treeInduction generalizing name built with
  | step item ih =>
    cases mirrors with
    | factory provided isMethod nonEmpty passes =>
        have isFactory := filter_nonEmpty_eq_some_iff.mpr ⟨isMethod, nonEmpty⟩
        rw [instruction_of_service settings name provided, Service.instruction,
          Service.factoryMethod, isFactory, ← (passes_iff _ _).mp passes]
        rfl
    | service provided noMethod =>
        have noFactory := filter_nonEmpty_eq_none_iff.mpr noMethod
        rw [instruction_of_service settings name provided, Service.instruction,
          Service.factoryMethod, noFactory]
        rfl
    | expression noService isSource nonEmpty =>
        have decides := filter_nonEmpty_eq_some_iff.mpr ⟨isSource, nonEmpty⟩
        rw [instruction_of_source settings name noService decides]
        rfl
    | node noService noSource hasChildren attached =>
        have noExpression := filter_nonEmpty_eq_none_iff.mpr noSource
        have sameCalls := attached.childCalls_eq fun entry member _ _ => ih entry member
        rw [instruction_of_own settings name noService noExpression,
          assemble_flatAttributes name item (childCalls_ne_nil hasChildren), sameCalls]
    | leaf noService noSource noChildren =>
        have noExpression := filter_nonEmpty_eq_none_iff.mpr noSource
        rw [instruction_of_own settings name noService noExpression, noChildren]
        rfl

/-! ## Pruning -/

theorem prunedChildren_eq_map (children : List (String × Item)) :
    prunedChildren children = children.map fun entry => (entry.1, entry.2.pruned) := by
  induction children with
  | nil => rfl
  | cons entry rest ih => rw [prunedChildren, ih, List.map_cons]

/-- Pruning changes no instruction. -/
theorem instruction_pruned (settings : Settings) (name : String) (item : Item) :
    item.pruned.instruction settings name = item.instruction settings name := by
  induction item using treeInduction generalizing name with
  | step item ih =>
    obtain ⟨options, route, service, expression, children, attributes⟩ := item
    cases service with
    | some service => rw [pruned, instruction, instruction]
    | none =>
        cases isSource : expression.filter (· ≠ "") with
        | some source =>
            have nonEmpty := (filter_nonEmpty_eq_some_iff.mp isSource).2
            have decides : (some source).filter (· ≠ "") = some source :=
              filter_nonEmpty_eq_some_iff.mpr ⟨rfl, nonEmpty⟩
            rw [pruned, isSource, instruction, instruction, isSource, decides]
        | none =>
            have sameCalls : childCalls settings (prunedChildren children) =
                childCalls settings children := by
              rw [childCalls_eq_map, childCalls_eq_map, prunedChildren_eq_map, List.map_map]
              apply List.map_congr_left
              intro entry member
              rw [Function.comp_apply, ih entry member]
            rw [pruned, isSource, instruction, instruction, isSource, sameCalls]

/-- An item becomes the one instruction that mirrors the pruned item. -/
theorem mirrors_pruned_iff (settings : Settings) (name : String) (item : Item)
    (built : Instruction) :
    Mirrors settings name item.pruned built ↔ item.instruction settings name = built := by
  constructor
  · intro mirrors
    rw [← instruction_pruned, mirrors.instruction_eq]
  · rintro rfl
    rw [← instruction_pruned]
    exact mirrors_instruction settings name item.pruned

end Item

end MenuPlan

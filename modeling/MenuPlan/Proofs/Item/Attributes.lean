/-
# Where attributes come from

The attributes of an item are merged from three layers that may set the same keys: its options, its
own keys, and its route. `Item.HasAttribute` says in rules which layer decides about a key and what
the attribute is: the route comes before the item's own keys, and these before the options, and each
layer is taken in its own way. `Item.attributeKeys` says where a key stands. Neither mentions the
merging, and together they leave nothing open, because no key is there twice. The root of a menu is
merged likewise, from two layers.

What is found under a key of an overlay, and which keys it has in which order, are two lemmas about
fields. Everything else follows from these.
-/

import Mathlib
import MenuPlan.Menu
import MenuPlan.Proofs.Instruction.Restoring

namespace MenuPlan

namespace Fields

variable {α β : Type}

/-- A function of values changes what is found under a name and nothing else. -/
theorem get?_mapValues (f : α → β) (fields : Fields α) (name : String) :
    get? (mapValues f fields) name = (get? fields name).map f :=
  get?_map (fun _ => f) fields name

/-- The upper layer of an overlay decides about the names that it has. -/
theorem get?_overlay {fields entries : Fields α} (distinct : Distinct entries) (name : String) :
    get? (overlay fields entries) name = (get? entries name).or (get? fields name) := by
  induction entries generalizing fields with
  | nil => rfl
  | cons entry rest ih =>
      obtain ⟨key, value⟩ := entry
      obtain ⟨fresh, later⟩ := List.nodup_cons.mp distinct
      have step : get? (overlay fields ((key, value) :: rest)) name =
          (get? rest name).or (get? (insert fields key value) name) := ih later
      rw [step, get?]
      by_cases same : key = name
      · subst same
        rw [(get?_eq_none_iff rest key).mpr fresh, get?_insert_self, if_pos rfl, Option.none_or,
          Option.some_or]
      · rw [get?_insert_of_ne fields value same, if_neg same]

/-- The names of the lower layer keep their places, and the other ones of the upper layer follow. -/
theorem names_overlay {fields entries : Fields α} (distinct : Distinct entries) :
    names (overlay fields entries) =
      names fields ++ (names entries).filter fun name => name ∉ names fields := by
  induction entries generalizing fields with
  | nil => exact (List.append_nil _).symm
  | cons entry rest ih =>
      obtain ⟨key, value⟩ := entry
      obtain ⟨fresh, later⟩ := List.nodup_cons.mp distinct
      have step : names (overlay fields ((key, value) :: rest)) =
          names (insert fields key value) ++
            (names rest).filter fun name => name ∉ names (insert fields key value) := ih later
      rw [step, names_insert, names_cons]
      by_cases present : key ∈ names fields
      · rw [if_pos present, List.filter_cons_of_neg (by simpa using present)]
      · have sameRest : ((names rest).filter fun name => name ∉ names fields ++ [key]) =
            (names rest).filter fun name => name ∉ names fields := by
          apply List.filter_congr
          intro name member
          have different : name ≠ key := by
            rintro rfl
            exact fresh member
          simp [different]
        rw [if_neg present, sameRest, List.filter_cons_of_pos (by simpa using present),
          List.append_assoc, List.singleton_append]

end Fields

/-- What the members of an object mean has their names. -/
theorem Term.distinct_ofMembers {members : Fields Data} (distinct : Fields.Distinct members) :
    Fields.Distinct (ofMembers members) := by
  rwa [ofMembers_eq_mapValues, Fields.Distinct, Fields.names_mapValues]

namespace Item

variable {settings : Settings} {name : String} {item : Item} {key : String} {term : Term}

/-- The keys about which the construction of an item is decided. They are no attributes. -/
def drivingNames : List String := ["children", "expression"]

/-- The keys that a route sets. -/
def routeKeys : List String := ["route", "routeParameters", "routeAbsolute"]

/-- The key may be an attribute, and no route decides about it. -/
def LeavesFree (item : Item) (key : String) : Prop :=
  key ∉ drivingNames ∧ (item.route = none ∨ key ∉ routeKeys)

/-- The attribute that an item has under a key. The parts of a route are resolved, own keys are
literal, and options are resolved. -/
inductive HasAttribute (item : Item) : String → Term → Prop where
  | routeName {route : Route} (leads : item.route = some route) :
      HasAttribute item "route" (.ofData (.string route.name))
  | routeParameters {route : Route} (leads : item.route = some route) :
      HasAttribute item "routeParameters"
        (.mapping (Fields.mapValues Term.ofData route.parameters))
  | routeAbsolute {route : Route} (leads : item.route = some route) :
      HasAttribute item "routeAbsolute" (.ofData route.absolute)
  | own {key : String} {value : Data} (free : item.LeavesFree key)
      (isOwn : (key, value) ∈ item.attributes) : HasAttribute item key (.literal value)
  | option {key : String} {value : Data} (free : item.LeavesFree key)
      (notOwn : key ∉ Fields.names item.attributes) (isOption : (key, value) ∈ item.options) :
      HasAttribute item key (.ofData value)

/-- The keys of an item's attributes: those of the options, then the own ones that are no options,
then those of the route that are neither. -/
def attributeKeys (item : Item) : List String :=
  let options := Fields.names item.options
  let own := (Fields.names item.attributes).filter fun key => key ∉ options
  let route := (if item.route.isSome then routeKeys else []).filter fun key =>
    key ∉ options ∧ key ∉ Fields.names item.attributes
  (options ++ own ++ route).filter fun key => key ∉ drivingNames

/-- The layers below the route, one over the other. -/
def ownLayers (item : Item) : Fields Term :=
  Fields.overlay (Term.ofMembers item.options) (Fields.mapValues Term.literal item.attributes)

/-- The layer of the route. -/
def routeLayer (item : Item) : Fields Term :=
  item.route.elim [] Route.attributes

theorem names_routeLayer (item : Item) :
    Fields.names item.routeLayer = if item.route.isSome then routeKeys else [] := by
  rw [routeLayer]
  cases item.route <;> rfl

theorem distinct_routeLayer (item : Item) : Fields.Distinct item.routeLayer := by
  have distinctKeys : routeKeys.Nodup := by decide
  rw [Fields.Distinct, names_routeLayer]
  split_ifs
  · exact distinctKeys
  · exact List.nodup_nil

/-- A key is found in the first layer that has it, from the route downwards, unless it drives the
construction. -/
theorem get?_flatAttributes (distinct : Fields.Distinct item.attributes) (key : String) :
    Fields.get? item.flatAttributes key =
      if key ∈ drivingNames then none
      else (Fields.get? item.routeLayer key).or
        (((Fields.get? item.attributes key).map Term.literal).or
          ((Fields.get? item.options key).map Term.ofData)) := by
  have isFlat : item.flatAttributes = Fields.erase (Fields.erase
      (Fields.overlay item.ownLayers item.routeLayer) "children") "expression" := rfl
  have distinctOwn : Fields.Distinct (Fields.mapValues Term.literal item.attributes) := by
    rwa [Fields.Distinct, Fields.names_mapValues]
  rw [isFlat, Fields.get?_erase, Fields.get?_erase, Fields.get?_overlay item.distinct_routeLayer,
    ownLayers, Fields.get?_overlay distinctOwn, Fields.get?_mapValues, Term.ofMembers_eq_mapValues,
    Fields.get?_mapValues, ← ite_or]
  exact if_congr (by simp [drivingNames, or_comm]) rfl rfl

/-- What is found under a key is the attribute of the rules. -/
theorem get?_flatAttributes_eq_some_iff (distinctOptions : Fields.Distinct item.options)
    (distinct : Fields.Distinct item.attributes) :
    Fields.get? item.flatAttributes key = some term ↔ item.HasAttribute key term := by
  have isFree : key ∉ drivingNames → Fields.get? item.routeLayer key = none →
      item.LeavesFree key := by
    intro notDriving noRoute
    rw [Fields.get?_eq_none_iff, names_routeLayer] at noRoute
    refine ⟨notDriving, ?_⟩
    cases leads : item.route with
    | none => exact Or.inl rfl
    | some route =>
        rw [leads] at noRoute
        exact Or.inr noRoute
  have fromBelow : item.LeavesFree key → Fields.get? item.flatAttributes key =
      ((Fields.get? item.attributes key).map Term.literal).or
        ((Fields.get? item.options key).map Term.ofData) := by
    rintro ⟨notDriving, noRoute⟩
    have notInRoute : Fields.get? item.routeLayer key = none := by
      rw [Fields.get?_eq_none_iff, names_routeLayer]
      rcases noRoute with none | other
      · rw [none]
        exact List.not_mem_nil
      · split_ifs
        · exact other
        · exact List.not_mem_nil
    rw [get?_flatAttributes distinct, if_neg notDriving, notInRoute, Option.none_or]
  constructor
  · intro found
    rw [get?_flatAttributes distinct] at found
    split_ifs at found with driving
    rcases Option.or_eq_some_iff.mp found with inRoute | ⟨noRoute, below⟩
    · have member := Fields.mem_of_get?_eq_some inRoute
      rw [routeLayer] at member
      cases leads : item.route with
      | none =>
          rw [leads] at member
          cases member
      | some route =>
          rw [leads, Option.elim_some, Route.attributes, Term.ofMembers_eq_mapValues] at member
          simp only [List.mem_cons, List.not_mem_nil, or_false, Prod.mk.injEq] at member
          rcases member with ⟨rfl, rfl⟩ | ⟨rfl, rfl⟩ | ⟨rfl, rfl⟩
          · exact .routeName leads
          · exact .routeParameters leads
          · exact .routeAbsolute leads
    · have free := isFree driving noRoute
      rcases Option.or_eq_some_iff.mp below with inOwn | ⟨noOwn, inOptions⟩
      · obtain ⟨value, isOwn, rfl⟩ := Option.map_eq_some_iff.mp inOwn
        exact .own free (Fields.mem_of_get?_eq_some isOwn)
      · rw [Option.map_eq_none_iff, Fields.get?_eq_none_iff] at noOwn
        obtain ⟨value, isOption, rfl⟩ := Option.map_eq_some_iff.mp inOptions
        exact .option free noOwn (Fields.mem_of_get?_eq_some isOption)
  · intro hasAttribute
    cases hasAttribute with
    | routeName leads | routeParameters leads | routeAbsolute leads =>
        rw [get?_flatAttributes distinct, if_neg (by decide), routeLayer, leads, Option.elim_some,
          Route.attributes, Term.ofMembers_eq_mapValues]
        rfl
    | own free isOwn =>
        rw [fromBelow free, Fields.get?_eq_some_of_mem distinct isOwn]
        rfl
    | option free notOwn isOption =>
        rw [fromBelow free, (Fields.get?_eq_none_iff _ _).mpr notOwn,
          Fields.get?_eq_some_of_mem distinctOptions isOption]
        rfl

/-- The keys of the attributes stand in the order of the layers, from the options upwards. -/
theorem names_flatAttributes (distinct : Fields.Distinct item.attributes) :
    Fields.names item.flatAttributes = item.attributeKeys := by
  have isFlat : item.flatAttributes = Fields.erase (Fields.erase
      (Fields.overlay item.ownLayers item.routeLayer) "children") "expression" := rfl
  have distinctOwn : Fields.Distinct (Fields.mapValues Term.literal item.attributes) := by
    rwa [Fields.Distinct, Fields.names_mapValues]
  have ownNames : Fields.names item.ownLayers = Fields.names item.options ++
      (Fields.names item.attributes).filter fun key => key ∉ Fields.names item.options := by
    rw [ownLayers, Fields.names_overlay distinctOwn, Fields.names_mapValues,
      Term.ofMembers_eq_mapValues, Fields.names_mapValues]
  have notBelow : ∀ key, key ∉ Fields.names item.ownLayers ↔
      key ∉ Fields.names item.options ∧ key ∉ Fields.names item.attributes := by
    intro key
    rw [ownNames]
    simp only [List.mem_append, List.mem_filter, decide_eq_true_eq]
    tauto
  rw [isFlat, Fields.names_erase, Fields.names_erase, Fields.names_overlay item.distinct_routeLayer,
    names_routeLayer, List.filter_filter, attributeKeys]
  simp only [notBelow]
  rw [ownNames]
  apply List.filter_congr
  intro key _
  simp [drivingNames, Bool.and_comm]

/-- No attribute is there twice. -/
theorem distinct_flatAttributes (distinctOptions : Fields.Distinct item.options) :
    Fields.Distinct item.flatAttributes :=
  ((((Term.distinct_ofMembers distinctOptions).overlay _).overlay _).erase _).erase _

/-- The instruction has these attributes: it is a map of them or, with children, calls the factory
of items with them. -/
structure IsMadeOf (settings : Settings) (name : String) (item : Item) (attributes : Fields Term) :
    Prop where
  leaf : item.children = [] → item.instruction settings name = .plainMap attributes
  node : item.children ≠ [] → (item.instruction settings name).origin =
    .factoryCall settings.itemType settings.itemFactory
      [.value (.literal (.string name)), .value (.mapping attributes)]

/-- An item that nothing provides is made of its attributes. -/
theorem isMadeOf_flatAttributes (noService : item.service = none)
    (blank : IsBlank item.expression) :
    item.IsMadeOf settings name item.flatAttributes := by
  have isOwn := instruction_of_own settings name noService (filter_nonEmpty_eq_none_iff.mpr blank)
  constructor
  · intro noChildren
    rw [isOwn, noChildren]
    rfl
  · intro hasChildren
    rw [isOwn, assemble_flatAttributes name item (childCalls_ne_nil hasChildren)]

end Item

namespace Menu

variable {settings : Settings} {name : String} {menu : Menu} {key : String} {term : Term}

/-- The attribute that the root of a menu has under a key, resolved from either layer. -/
inductive HasAttribute (menu : Menu) : String → Term → Prop where
  | own {key : String} {value : Data} (notChildren : key ≠ "children")
      (isOwn : (key, value) ∈ menu.attributes) : HasAttribute menu key (.ofData value)
  | option {key : String} {value : Data} (notChildren : key ≠ "children")
      (notOwn : key ∉ Fields.names menu.attributes) (isOption : (key, value) ∈ menu.options) :
      HasAttribute menu key (.ofData value)

/-- The keys of the root's attributes: those of the options, then the other keys of the menu. -/
def attributeKeys (menu : Menu) : List String :=
  let options := Fields.names menu.options
  let own := (Fields.names menu.attributes).filter fun key => key ∉ options
  (options ++ own).filter fun key => key ≠ "children"

/-- What is passed to the factory as the attributes of the root. -/
def passedAttributes (menu : Menu) : Fields Term :=
  Fields.erase menu.rootAttributes "children"

/-- No attribute is there twice. -/
theorem distinct_passedAttributes (distinctOptions : Fields.Distinct menu.options) :
    Fields.Distinct menu.passedAttributes :=
  ((Term.distinct_ofMembers distinctOptions).overlay _).erase _

/-- What is found under a key is the attribute of the rules. -/
theorem get?_passedAttributes_eq_some_iff (distinctOptions : Fields.Distinct menu.options)
    (distinct : Fields.Distinct menu.attributes) :
    Fields.get? menu.passedAttributes key = some term ↔ menu.HasAttribute key term := by
  have inLayers : Fields.get? menu.passedAttributes key =
      if key = "children" then none
      else ((Fields.get? menu.attributes key).map Term.ofData).or
        ((Fields.get? menu.options key).map Term.ofData) := by
    rw [passedAttributes, Fields.get?_erase, rootAttributes,
      Fields.get?_overlay (Term.distinct_ofMembers distinct), Term.ofMembers_eq_mapValues,
      Term.ofMembers_eq_mapValues, Fields.get?_mapValues, Fields.get?_mapValues]
  rw [inLayers]
  constructor
  · intro found
    split_ifs at found with isChildren
    rcases Option.or_eq_some_iff.mp found with inOwn | ⟨noOwn, inOptions⟩
    · obtain ⟨value, isOwn, rfl⟩ := Option.map_eq_some_iff.mp inOwn
      exact .own isChildren (Fields.mem_of_get?_eq_some isOwn)
    · rw [Option.map_eq_none_iff, Fields.get?_eq_none_iff] at noOwn
      obtain ⟨value, isOption, rfl⟩ := Option.map_eq_some_iff.mp inOptions
      exact .option isChildren noOwn (Fields.mem_of_get?_eq_some isOption)
  · intro hasAttribute
    cases hasAttribute with
    | own notChildren isOwn =>
        rw [if_neg notChildren, Fields.get?_eq_some_of_mem distinct isOwn]
        rfl
    | option notChildren notOwn isOption =>
        rw [if_neg notChildren, (Fields.get?_eq_none_iff _ _).mpr notOwn,
          Fields.get?_eq_some_of_mem distinctOptions isOption]
        rfl

/-- The keys stand in the order of the layers. -/
theorem names_passedAttributes (distinct : Fields.Distinct menu.attributes) :
    Fields.names menu.passedAttributes = menu.attributeKeys := by
  rw [passedAttributes, Fields.names_erase, rootAttributes,
    Fields.names_overlay (Term.distinct_ofMembers distinct), Term.ofMembers_eq_mapValues,
    Term.ofMembers_eq_mapValues, Fields.names_mapValues, Fields.names_mapValues, attributeKeys]

/-- A menu that is built has a root that is made with these attributes. -/
theorem origin_of_instruction {root : Instruction}
    (built : (menu.instruction settings name).result = .ok root) :
    root.origin = .factoryCall settings.itemType settings.itemFactory
      [.value (.literal (.string "root")), .value (.mapping menu.passedAttributes)] := by
  obtain ⟨calls, -, rfl⟩ := map_eq_ok_iff.mp built
  rfl

end Menu

namespace Menu

/-- A menu with an option that its own key overrides. -/
def layered : Menu where
  options := [("class", .string "nav"), ("children", .null)]
  items := [("home", .null)]
  attributes := [("uri", .string "@@"), ("class", .string "@classes.nav")]

end Menu

namespace Item

/-- An item on which the layers meet: an option and an own key for the label, an own key for a part
of the route, and an option that drives nothing. -/
def layered : Item where
  options := [("icon", .string "@icon"), ("children", .null), ("label", .string "Away")]
  route := some ⟨"home", [("page", .string "@page")], .bool false⟩
  expression := some ""
  attributes := [("routeAbsolute", .bool true), ("uri", .string "@home"), ("label", .string "Home")]

/-- An item that nothing provides has exactly the attributes of the rules, each once and in the
order of the layers, whether it is a map of them or is made with them; and so has the root of a
menu. In particular no option overrides a key that is set directly. -/
theorem attributes_are_merged_in_layers (settings : Settings) (name : String) :
    (∀ item : Item, item.service = none → IsBlank item.expression →
      Fields.Distinct item.options → Fields.Distinct item.attributes →
      ∃ attributes, item.IsMadeOf settings name attributes ∧ Fields.Distinct attributes ∧
        (∀ key term, Fields.get? attributes key = some term ↔ item.HasAttribute key term) ∧
        Fields.names attributes = item.attributeKeys ∧
        ∀ key value, (key, value) ∈ item.attributes → item.LeavesFree key →
          Fields.get? attributes key = some (.literal value)) ∧
    ∀ menu : Menu, Fields.Distinct menu.options → Fields.Distinct menu.attributes →
      ∃ attributes, Fields.Distinct attributes ∧
        (∀ root, (menu.instruction settings name).result = .ok root →
          root.origin = .factoryCall settings.itemType settings.itemFactory
            [.value (.literal (.string "root")), .value (.mapping attributes)]) ∧
        (∀ key term, Fields.get? attributes key = some term ↔ menu.HasAttribute key term) ∧
        Fields.names attributes = menu.attributeKeys ∧
        ∀ key value, (key, value) ∈ menu.attributes → key ≠ "children" →
          Fields.get? attributes key = some (.ofData value) := by
  constructor
  · intro item noService blank distinctOptions distinct
    have rules : ∀ key term, Fields.get? item.flatAttributes key = some term ↔
        item.HasAttribute key term :=
      fun key term => get?_flatAttributes_eq_some_iff distinctOptions distinct
    refine ⟨item.flatAttributes, isMadeOf_flatAttributes noService blank,
      distinct_flatAttributes distinctOptions, rules, names_flatAttributes distinct, ?_⟩
    intro key value isOwn free
    exact (rules key _).mpr (.own free isOwn)
  · intro menu distinctOptions distinct
    have rules : ∀ key term, Fields.get? menu.passedAttributes key = some term ↔
        menu.HasAttribute key term :=
      fun key term => Menu.get?_passedAttributes_eq_some_iff distinctOptions distinct
    refine ⟨menu.passedAttributes, Menu.distinct_passedAttributes distinctOptions,
      fun root => Menu.origin_of_instruction, rules, Menu.names_passedAttributes distinct, ?_⟩
    intro key value isOwn notChildren
    exact (rules key _).mpr (.own notChildren isOwn)

/-- The label is the item's own, the flag is that of the route in the place of the own key, and the
root of the menu has its own class in the place of the option. -/
theorem layered_are_merged_in_layers :
    (∃ attributes, layered.instruction {} "home" = .plainMap attributes ∧
      Fields.names attributes =
        ["icon", "label", "routeAbsolute", "uri", "route", "routeParameters"] ∧
      Fields.get? attributes "label" = some (.literal (.string "Home")) ∧
      Fields.get? attributes "routeAbsolute" = some (.literal (.bool false)) ∧
      Fields.get? attributes "uri" = some (.literal (.string "@home")) ∧
      Fields.get? attributes "icon" = some (.expression "icon")) ∧
    ∃ root attributes, (Menu.layered.instruction {} "main").result = .ok root ∧
      root.origin = .factoryCall "menu_item" ⟨"navigation.menu_factory", "createItem"⟩
        [.value (.literal (.string "root")), .value (.mapping attributes)] ∧
      Fields.names attributes = ["class", "uri"] ∧
      Fields.get? attributes "class" = some (.expression "classes.nav") := by
  constructor
  · obtain ⟨attributes, isMadeOf, -, rules, areKeys, own⟩ :=
      (attributes_are_merged_in_layers {} "home").1 layered rfl (Or.inr rfl) (by decide)
        (by decide)
    have leads : layered.route = some ⟨"home", [("page", .string "@page")], .bool false⟩ := rfl
    have flag : layered.HasAttribute "routeAbsolute" (.ofData (.bool false)) :=
      .routeAbsolute leads
    have icon : layered.HasAttribute "icon" (.ofData (.string "@icon")) :=
      .option ⟨by decide, Or.inr (by decide)⟩ (by decide) (by simp [layered])
    have isIcon : Term.ofData (.string "@icon") = .expression "icon" := by cbv
    refine ⟨attributes, isMadeOf.leaf rfl, areKeys.trans (by decide), ?_, ?_, ?_, ?_⟩
    · exact own "label" _ (by simp [layered]) ⟨by decide, Or.inr (by decide)⟩
    · exact (rules _ _).mpr flag
    · exact own "uri" _ (by simp [layered]) ⟨by decide, Or.inr (by decide)⟩
    · exact (rules _ _).mpr (isIcon ▸ icon)
  · obtain ⟨attributes, -, isRoot, rules, areKeys, own⟩ :=
      (attributes_are_merged_in_layers {} "main").2 Menu.layered (by decide) (by decide)
    have succeeds : (Menu.layered.instruction {} "main").result.isOk = true := by cbv
    obtain ⟨root, isBuilt⟩ : ∃ root, (Menu.layered.instruction {} "main").result = .ok root := by
      cases built : (Menu.layered.instruction {} "main").result with
      | ok root => exact ⟨root, rfl⟩
      | error error =>
          rw [built] at succeeds
          cases succeeds
    have ownClass := own "class" (.string "@classes.nav") (by simp [Menu.layered]) (by decide)
    have isClass : Term.ofData (.string "@classes.nav") = .expression "classes.nav" := by cbv
    exact ⟨root, attributes, isBuilt, isRoot root isBuilt, areKeys.trans (by decide),
      isClass ▸ ownClass⟩

end Item

end MenuPlan

/-
# An item conserves the data it is read from

`Item.Conserves` relates data to the item that holds it, in rules that do not follow the reading:
the members of the data split into options, route, service, expression, children and the rest, each
goes to one part of the item, and every part comes from one of them. The relation leaves nothing
open: data is conserved by one item at most.

The main result is that data describes exactly the item that conserves it, if it is in the grammar
of items. The names of an object are distinct, as they are in every document that has been read.
-/

import MenuPlan.Proofs.Item.Parts
import MenuPlan.Proofs.Json.Restoring

namespace MenuPlan

/-- A route holds all that the data says of it: a name, or a record with a name and maybe parameters
and a flag. -/
inductive Route.Conserves : Data → Option Route → Prop where
  | none : Conserves .null none
  | name (name : String) : Conserves (.string name) (some ⟨name, [], .bool false⟩)
  | record {entries : Fields Data} {route : Route}
      (keys : ∀ entry ∈ entries, entry.1 ∈ ["name", "parameters", "absolute"])
      (name : Fields.get? entries "name" = some (.string route.name))
      (parameters : (Fields.get? entries "parameters").getD (.object []) =
        .object route.parameters)
      (absolute : (Fields.get? entries "absolute").getD (.bool false) = route.absolute) :
      Conserves (.object entries) (some route)

/-- A service holds all that the data says of it: an id, or a record with an id and maybe a method
and parameters, where null stands for none. -/
inductive Service.Conserves : Data → Option Service → Prop where
  | none : Conserves .null none
  | name (id : String) : Conserves (.string id) (some ⟨id, none, none⟩)
  | record {entries : Fields Data} {service : Service}
      (keys : ∀ entry ∈ entries, entry.1 ∈ ["id", "method", "parameters"])
      (id : Fields.get? entries "id" = some (.string service.id))
      (method : (Fields.get? entries "method").getD .null = service.method.elim .null .string)
      (parameters : (Fields.get? entries "parameters").filter (· ≠ .null) = service.parameters) :
      Conserves (.object entries) (some service)

namespace Item

mutual

/-- An item holds all that the data says of it, and nothing else. Null is the empty item; the
members of an object are the parts of the item by their names, a missing one being the empty part,
and the others are the attributes in their order. -/
inductive Conserves : Data → Item → Prop where
  | empty : Conserves .null {}
  | object {members : Fields Data} {item : Item}
      (options : (Fields.get? members "options").getD (.object []) = .object item.options)
      (route : Route.Conserves ((Fields.get? members "route").getD .null) item.route)
      (service : Service.Conserves ((Fields.get? members "service").getD .null) item.service)
      (expression : (Fields.get? members "expression").getD .null =
        item.expression.elim .null .string)
      (children : ConservesBelow ((Fields.get? members "children").getD .null) item.children)
      (attributes : item.attributes = members.filter fun member =>
        member.1 ∉ ["options", "route", "service", "expression", "children"]) :
      Conserves (.object members) item

/-- The items below hold all that the data says of them. -/
inductive ConservesBelow : Data → List (String × Item) → Prop where
  | none : ConservesBelow .null []
  | items {entries : List (String × Data)} {children : List (String × Item)}
      (each : ConservesEach entries children) : ConservesBelow (.object entries) children

/-- One item for each entry, in their order and under their names. -/
inductive ConservesEach : List (String × Data) → List (String × Item) → Prop where
  | nil : ConservesEach [] []
  | cons {name : String} {raw : Data} {child : Item} {entries : List (String × Data)}
      {children : List (String × Item)} (first : Conserves raw child)
      (rest : ConservesEach entries children) :
      ConservesEach ((name, raw) :: entries) ((name, child) :: children)

end

end Item

/-- The parameters of a route are an object. -/
theorem Route.isMember_parameters_iff {value : Data} :
    IsMember "parameters" value ↔ ∃ members, value = .object members := by
  constructor
  · intro isMember
    generalize isName : "parameters" = name at isMember
    cases isMember with
    | parameters members => exact ⟨members, rfl⟩
    | name | absoluteFlag | absoluteText => exact absurd isName (by decide)
  · rintro ⟨members, rfl⟩
    exact IsMember.parameters members

/-- The method of a service is a text or null. -/
theorem Service.isMember_method_iff {value : Data} :
    IsMember "method" value ↔ value = .null ∨ ∃ text, value = .string text := by
  constructor
  · intro isMember
    generalize isName : "method" = name at isMember
    cases isMember with
    | method text => exact Or.inr ⟨text, rfl⟩
    | noMethod => exact Or.inl rfl
    | id | parameters => exact absurd isName (by decide)
  · rintro (rfl | ⟨text, rfl⟩)
    · exact IsMember.noMethod
    · exact IsMember.method text

/-- A route in the grammar is read without loss. -/
theorem Route.conserves_of_read {raw : Data} {route : Option Route}
    (isRoute : IsNameOrRecord "name" IsMember raw)
    (isRead : readOptional read (Item.expandName "name" raw) = .ok route) :
    Conserves raw route := by
  cases isRoute with
  | null =>
      cases isRead
      exact .none
  | name =>
      cases isRead
      exact .name _
  | @record entries isNamed each =>
      obtain ⟨route, isRoute, rfl⟩ := map_eq_ok_iff.mp isRead
      obtain ⟨members, isRecord, rfl⟩ := map_eq_ok_iff.mp isRoute
      obtain rfl := RecordType.eq_of_read_object isRecord
      have keys : ∀ entry ∈ members, entry.1 ∈ ["name", "parameters", "absolute"] := by
        rintro ⟨name, value⟩ member
        have isMember : IsMember name value := each _ member
        cases isMember <;> simp
      refine .record keys ?_ ?_ rfl
      · obtain ⟨value, found⟩ := Option.isSome_iff_exists.mp
          ((Fields.get?_isSome_iff members "name").mpr isNamed)
        obtain ⟨text, rfl, -⟩ :=
          isMember_name_iff.mp (each _ (Fields.mem_of_get?_eq_some found))
        simp only [found, Fields.textAt]
      · cases found : Fields.get? members "parameters" with
        | none => simp only [found, Fields.mapAt, Option.getD_none]
        | some value =>
            obtain ⟨parameters, rfl⟩ :=
              isMember_parameters_iff.mp (each _ (Fields.mem_of_get?_eq_some found))
            simp only [found, Fields.mapAt, Option.getD_some]

/-- A service in the grammar is read without loss. -/
theorem Service.conserves_of_read {raw : Data} {service : Option Service}
    (isService : IsNameOrRecord "id" IsMember raw)
    (isRead : readOptional read (Item.expandName "id" raw) = .ok service) :
    Conserves raw service := by
  cases isService with
  | null =>
      cases isRead
      exact .none
  | name =>
      cases isRead
      exact .name _
  | @record entries isNamed each =>
      obtain ⟨service, isService, rfl⟩ := map_eq_ok_iff.mp isRead
      obtain ⟨members, isRecord, rfl⟩ := map_eq_ok_iff.mp isService
      obtain rfl := RecordType.eq_of_read_object isRecord
      have keys : ∀ entry ∈ members, entry.1 ∈ ["id", "method", "parameters"] := by
        rintro ⟨name, value⟩ member
        have isMember : IsMember name value := each _ member
        cases isMember <;> simp
      refine .record keys ?_ ?_ rfl
      · obtain ⟨value, found⟩ := Option.isSome_iff_exists.mp
          ((Fields.get?_isSome_iff members "id").mpr isNamed)
        obtain ⟨text, rfl, -⟩ :=
          isMember_id_iff.mp (each _ (Fields.mem_of_get?_eq_some found))
        simp only [found, Fields.textAt]
      · cases found : Fields.get? members "method" with
        | none => simp only [found, Fields.optionalTextAt, Option.getD_none, Option.elim_none]
        | some value =>
            rcases isMember_method_iff.mp (each _ (Fields.mem_of_get?_eq_some found)) with
              rfl | ⟨text, rfl⟩
            · simp only [found, Fields.optionalTextAt, Option.getD_some, Option.elim_none]
            · simp only [found, Fields.optionalTextAt, Option.getD_some, Option.elim_some]

/-- Data is conserved by one route at most. -/
theorem Route.Conserves.unique {raw : Data} {route other : Option Route}
    (first : Conserves raw route) (second : Conserves raw other) : route = other := by
  cases first with
  | none =>
      cases second
      rfl
  | name =>
      cases second
      rfl
  | @record entries route _ name parameters absolute =>
      cases second with
      | @record _ other _ otherName otherParameters otherAbsolute =>
          obtain ⟨routeName, routeParameters, routeAbsolute⟩ := route
          obtain ⟨_, _, _⟩ := other
          cases name.symm.trans otherName
          cases parameters.symm.trans otherParameters
          cases absolute.symm.trans otherAbsolute
          rfl

/-- A text or null is read as what it stands for. -/
theorem Data.optionalText?_eq_ok_iff {value : Data} {text : Option String} :
    value.optionalText? = .ok text ↔ value = text.elim .null .string := by
  cases value <;> cases text <;> simp [optionalText?, text?]

/-- Null stands for no text, and only null does. -/
theorem elim_string_injective {text other : Option String}
    (same : text.elim Data.null .string = other.elim .null .string) : text = other := by
  cases text <;> cases other <;> cases same <;> rfl

/-- Data is conserved by one service at most. -/
theorem Service.Conserves.unique {raw : Data} {service other : Option Service}
    (first : Conserves raw service) (second : Conserves raw other) : service = other := by
  cases first with
  | none =>
      cases second
      rfl
  | name =>
      cases second
      rfl
  | @record entries service _ id method parameters =>
      cases second with
      | @record _ other _ otherId otherMethod otherParameters =>
          obtain ⟨_, _, _⟩ := service
          obtain ⟨_, _, _⟩ := other
          cases id.symm.trans otherId
          cases elim_string_injective (method.symm.trans otherMethod)
          cases parameters.symm.trans otherParameters
          rfl

/-- A part that is set by the long forms of members is read from the long form of the one with its
name, and is left alone if there is none. -/
theorem PartSet.of_expandMembers {α : Type} {name : String} {read : Data → Except Mismatch α}
    {members : List (String × Data)} {before after : α}
    (set : PartSet name read (Item.expandMembers members) before after)
    (distinct : Fields.Distinct members) :
    (Fields.get? members name = none ∧ after = before) ∨
      ∃ value, Fields.get? members name = some value ∧
        read (Item.expandValue name value) = .ok after := by
  have isExpanded : Fields.get? (Item.expandMembers members) name =
      (Fields.get? members name).map (Item.expandValue name) := by
    rw [Item.expandMembers_eq_map]
    exact Fields.get?_map Item.expandValue members name
  have distinctExpanded : Fields.Distinct (Item.expandMembers members) := by
    rw [Item.expandMembers_eq_map, Fields.Distinct, Fields.names, List.map_map]
    exact distinct
  cases found : Fields.get? members name with
  | none =>
      refine Or.inl ⟨rfl, set.of_get?_eq_none ?_⟩
      rw [isExpanded, found, Option.map_none]
  | some value =>
      refine Or.inr ⟨value, rfl, set.of_get?_eq_some distinctExpanded ?_⟩
      rw [isExpanded, found, Option.map_some]

/-- An object that stands for a member, where null stands for a missing one, is the member. -/
theorem Data.mem_of_getD_eq_object {members : Fields Data} {name : String}
    {entries : List (String × Data)}
    (isObject : (Fields.get? members name).getD .null = .object entries) :
    (name, .object entries) ∈ members := by
  cases found : Fields.get? members name with
  | none =>
      rw [found] at isObject
      cases isObject
  | some value =>
      rw [found] at isObject
      cases isObject
      exact Fields.mem_of_get?_eq_some found

namespace Item

/-- The items below conserve their data one by one. -/
theorem conservesEach_iff {entries : List (String × Data)} {children : List (String × Item)} :
    ConservesEach entries children ↔
      List.Forall₂ (fun raw child => child.1 = raw.1 ∧ Conserves raw.2 child.2)
        entries children := by
  induction entries generalizing children with
  | nil =>
      rw [List.forall₂_nil_left_iff]
      constructor
      · rintro ⟨⟩
        rfl
      · rintro rfl
        exact .nil
  | cons raw rest ih =>
      rw [List.forall₂_cons_left_iff]
      constructor
      · rintro (_ | ⟨first, later⟩)
        exact ⟨_, _, ⟨rfl, first⟩, ih.mp later, rfl⟩
      · rintro ⟨⟨name, child⟩, later, ⟨rfl, first⟩, isLater, rfl⟩
        exact .cons first (ih.mpr isLater)

/-- What is below is conserved if the items below are, each of them. -/
theorem conservesBelow_of_read {raw : Data} {children : List (String × Item)}
    (isBelow : readBelow (expandChildren raw) = .ok children)
    (each : ∀ entries, raw = .object entries → ∀ entry ∈ entries, ∀ item,
      read (expand entry.2) = .ok item → Conserves entry.2 item) : ConservesBelow raw children := by
  obtain ⟨expanded, isObject, areRead⟩ := readBelow_eq_ok_iff.mp isBelow
  cases raw with
  | null =>
      cases isObject
      cases areRead
      exact .none
  | object entries =>
      cases isObject
      refine .items (conservesEach_iff.mpr ?_)
      rw [expandEntries_eq_map, List.forall₂_map_left_iff] at areRead
      have related := (List.forall₂_and_left _ _).mpr ⟨each entries rfl, areRead⟩
      exact related.imp fun entry child ⟨conserves, sameName, isRead⟩ =>
        ⟨sameName, conserves child.2 isRead⟩
  | bool _ | number _ | string _ | array _ => cases isObject

/-- An attribute is its own long form. -/
theorem expandValue_of_notMem_ownKeys {name : String} (isAttribute : name ∉ ownKeys)
    (value : Data) : expandValue name value = value := by
  simp only [ownKeys, List.mem_cons, List.not_mem_nil, or_false, not_or] at isAttribute
  obtain ⟨-, notRoute, notService, -, notChildren⟩ := isAttribute
  rw [expandValue, if_neg notRoute, if_neg notService, if_neg notChildren]

/-- The attributes are the same in the long form. -/
theorem filter_expandMembers (members : List (String × Data)) :
    (expandMembers members).filter (fun member => member.1 ∉ ownKeys) =
      members.filter fun member => member.1 ∉ ownKeys := by
  rw [expandMembers_eq_map, List.filter_map]
  refine (List.map_congr_left ?_).trans (List.map_id _)
  intro entry member
  have isAttribute : entry.1 ∉ ownKeys := by
    simpa using (List.mem_filter.mp member).2
  rw [expandValue_of_notMem_ownKeys isAttribute]
  rfl

/-- An object is conserved by the item that takes in its long form, if it is in the grammar and the
items below it are conserved. -/
theorem conserves_of_takesIn {strict : Bool} {members : Fields Data} {item : Item}
    (distinct : Fields.Distinct members)
    (isMember : ∀ entry ∈ members, HasNoFault strict entry.1 entry.2)
    (taken : TakesIn {} (expandMembers members) item)
    (below : ∀ entries, ("children", .object entries) ∈ members → ∀ entry ∈ entries, ∀ item,
      read (expand entry.2) = .ok item → Conserves entry.2 item) :
    Conserves (.object members) item := by
  have noFault : ∀ name value, Fields.get? members name = some value →
      HasNoFault strict name value :=
    fun name value found => isMember _ (Fields.mem_of_get?_eq_some found)
  refine .object ?_ ?_ ?_ ?_ ?_ ?_
  · rcases taken.options.of_expandMembers distinct with ⟨missing, isEmpty⟩ | ⟨value, found, isRead⟩
    · rw [missing, isEmpty]
      rfl
    · rw [found]
      exact Data.map?_eq_ok_iff.mp isRead
  · rcases taken.route.of_expandMembers distinct with ⟨missing, isEmpty⟩ | ⟨value, found, isRead⟩
    · rw [missing, isEmpty]
      exact .none
    · rw [found]
      exact Route.conserves_of_read (hasNoFault_route_iff.mp (noFault _ _ found)) isRead
  · rcases taken.service.of_expandMembers distinct with ⟨missing, isEmpty⟩ | ⟨value, found, isRead⟩
    · rw [missing, isEmpty]
      exact .none
    · rw [found]
      exact Service.conserves_of_read (hasNoFault_service_iff.mp (noFault _ _ found)) isRead
  · rcases taken.expression.of_expandMembers distinct with
      ⟨missing, isEmpty⟩ | ⟨value, found, isRead⟩
    · rw [missing, isEmpty]
      rfl
    · rw [found]
      exact Data.optionalText?_eq_ok_iff.mp isRead
  · rcases taken.children.of_expandMembers distinct with ⟨missing, isEmpty⟩ | ⟨value, found, isRead⟩
    · rw [missing, isEmpty]
      exact .none
    · rw [found]
      refine conservesBelow_of_read isRead ?_
      rintro entries rfl
      exact below entries (Fields.mem_of_get?_eq_some found)
  · rw [taken.attributes]
    exact filter_expandMembers members

/-- Data in the grammar is conserved by what is read of its long form. -/
theorem conserves_of_read {strict : Bool} {raw : Data} (distinct : raw.Distinct)
    (isItem : IsItem strict raw) {item : Item} (isRead : read (expand raw) = .ok item) :
    Conserves raw item := by
  induction raw using Data.itemInduction generalizing item with
  | step raw ih =>
    cases isItem with
    | null =>
        cases isRead
        exact .empty
    | @object members each =>
        obtain ⟨distinctMembers, distinctBelow⟩ := Data.distinct_object_iff.mp distinct
        rw [expand, read] at isRead
        refine conserves_of_takesIn distinctMembers (isItem_object_iff.mp (.object each))
          (takesIn_of_readMembers isRead) ?_
        intro entries inMembers entry inEntries child isChild
        have isItem := (each _ inMembers).isItem_of_mem_children rfl rfl entry inEntries
        have distinctEntries := Data.distinct_object_iff.mp (distinctBelow _ inMembers)
        exact ih members entries rfl inMembers entry inEntries (distinctEntries.2 entry inEntries)
          isItem isChild

/-- What is below is conserved by one list of items at most, if this is so of each of them. -/
theorem ConservesBelow.unique {raw : Data} {children others : List (String × Item)}
    (first : ConservesBelow raw children) (second : ConservesBelow raw others)
    (each : ∀ entries, raw = .object entries → ∀ entry ∈ entries, ∀ item other,
      Conserves entry.2 item → Conserves entry.2 other → item = other) : children = others := by
  cases first with
  | none =>
      cases second
      rfl
  | @items entries _ eachFirst =>
      cases second with
      | items eachSecond =>
          have ofFirst := (List.forall₂_and_left _ _).mpr
            ⟨each entries rfl, conservesEach_iff.mp eachFirst⟩
          have ofSecond := (List.forall₂_and_left _ _).mpr
            ⟨each entries rfl, conservesEach_iff.mp eachSecond⟩
          refine List.right_unique_forall₂' ?_ ofFirst ofSecond
          rintro entry child other ⟨same, isName, conserves⟩ ⟨-, isOther, conservesToo⟩
          exact Prod.ext (isName.trans isOther.symm) (same _ _ conserves conservesToo)

/-- Data is conserved by one item at most. -/
theorem Conserves.unique {raw : Data} {item other : Item} (first : Conserves raw item)
    (second : Conserves raw other) : item = other := by
  induction raw using Data.itemInduction generalizing item other with
  | step raw ih =>
    cases first with
    | empty =>
        cases second
        rfl
    | @object members item options route service expression children attributes =>
        cases second with
        | @object _ other otherOptions otherRoute otherService otherExpression otherChildren
            otherAttributes =>
            obtain ⟨_, _, _, _, firstChildren, _⟩ := item
            obtain ⟨_, _, _, _, secondChildren, _⟩ := other
            dsimp only at *
            have sameChildren : firstChildren = secondChildren := by
              refine children.unique otherChildren ?_
              intro entries isObject entry inEntries _ _ isFirst isSecond
              have member := Data.mem_of_getD_eq_object isObject
              exact ih members entries rfl member entry inEntries isFirst isSecond
            cases options.symm.trans otherOptions
            cases route.unique otherRoute
            cases service.unique otherService
            cases elim_string_injective (expression.symm.trans otherExpression)
            cases sameChildren
            rw [attributes, otherAttributes]

/-- The items below conserve the member for them, or null in its place. -/
theorem Conserves.conservesBelow_children {members : Fields Data} {item : Item}
    (conserves : Conserves (.object members) item) :
    ConservesBelow ((Fields.get? members "children").getD .null) item.children := by
  cases conserves with
  | object _ _ _ _ children _ => exact children

/-- An item below conserves an entry with its name. -/
theorem Conserves.exists_entry {members : Fields Data} {item : Item}
    (conserves : Conserves (.object members) item) {child : String × Item}
    (isChild : child ∈ item.children) :
    ∃ entries, ("children", .object entries) ∈ members ∧
      ∃ entry ∈ entries, child.1 = entry.1 ∧ Conserves entry.2 child.2 := by
  have below := conserves.conservesBelow_children
  generalize isValue : (Fields.get? members "children").getD .null = value at below
  generalize item.children = children at below isChild
  cases below with
  | none => cases isChild
  | @items entries _ each =>
      exact ⟨entries, Data.mem_of_getD_eq_object isValue,
        exists_mem_of_forall₂_right (conservesEach_iff.mp each) isChild⟩

/-- A property that an item has by the data it conserves holds of all items below it too. -/
theorem Conserves.everywhere {P : Item → Prop} (empty : P {})
    (own : ∀ members item, (Data.object members).Distinct → Conserves (.object members) item →
      P item)
    {raw : Data} {item : Item} (distinct : raw.Distinct) (conserves : Conserves raw item) :
    item.Everywhere P := by
  induction raw using Data.itemInduction generalizing item with
  | step raw ih =>
    cases raw with
    | object members =>
        refine ⟨own members item distinct conserves, fun child isChild => ?_⟩
        obtain ⟨entries, member, entry, inEntries, -, ofEntry⟩ := conserves.exists_entry isChild
        have distinctBelow := (Data.distinct_object_iff.mp distinct).2 _ member
        exact ih members entries rfl member entry inEntries
          ((Data.distinct_object_iff.mp distinctBelow).2 entry inEntries) ofEntry
    | null =>
        cases conserves
        exact ⟨empty, List.forall_mem_nil _⟩
    | bool _ | number _ | string _ | array _ => cases conserves

/-- Data in the grammar describes an item that conserves it. -/
theorem normalize_of_conserves {strict : Bool} {location : String} {raw : Data} {item : Item}
    (distinct : raw.Distinct) (isItem : IsItem strict raw) (conserves : Conserves raw item) :
    normalize strict location raw = .ok item := by
  obtain ⟨other, isRead⟩ := exists_read_expand isItem
  obtain rfl := conserves.unique (conserves_of_read distinct isItem isRead)
  exact normalize_eq_ok_iff.mpr ⟨isItem, isRead⟩

/-- Data with a null below, attributes on either side of the other keys, and nulls in a service. -/
def scatteredKeys : Data :=
  .object [
    ("uri", .string "/"),
    ("service", .object [
      ("parameters", .null), ("id", .string "app.menu"), ("method", .null)]),
    ("children", .object [
      ("about", .null),
      ("home", .object [
        ("icon", .null), ("route", .object [("absolute", .string "@x"), ("name", .string "home")]),
        ("label", .string "Home")])]),
    ("label", .null)]

/-- The item that this data describes. -/
def scatteredItem : Item where
  service := some ⟨"app.menu", none, none⟩
  children := [
    ("about", {}),
    ("home", {
      route := some ⟨"home", [], .string "@x"⟩
      attributes := [("icon", .null), ("label", .string "Home")] })]
  attributes := [("uri", .string "/"), ("label", .null)]

/-- Data describes exactly the item that conserves it, if it is in the grammar: the members split
into the parts of the item, at every level, and nothing else appears in it. -/
theorem normalize_conserves (strict : Bool) (location : String) (raw : Data) (item : Item)
    (distinct : raw.Distinct) :
    normalize strict location raw = .ok item ↔ IsItem strict raw ∧ Conserves raw item := by
  constructor
  · intro isNormal
    obtain ⟨isItem, isRead⟩ := normalize_eq_ok_iff.mp isNormal
    exact ⟨isItem, conserves_of_read distinct isItem isRead⟩
  · rintro ⟨isItem, conserves⟩
    exact normalize_of_conserves distinct isItem conserves

/-- The keys find their places at both levels, in a lenient grammar. -/
theorem scatteredKeys_conserves :
    scatteredKeys.Distinct ∧ normalize false "x" scatteredKeys = .ok scatteredItem ∧
      Conserves scatteredKeys scatteredItem := by
  have distinct : scatteredKeys.Distinct := by
    simp [scatteredKeys, Data.Distinct, Data.DistinctMembers, Fields.Distinct]
  have isItem : normalize false "x" scatteredKeys = .ok scatteredItem := by cbv
  exact ⟨distinct, isItem,
    ((normalize_conserves false "x" scatteredKeys scatteredItem distinct).mp isItem).2⟩

end Item

end MenuPlan

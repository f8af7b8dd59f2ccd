/-
# Items in another order of keys

The order in which the keys of an item are written has no meaning, except for that of the items
below it. `Data.ItemReordered` relates data that is equal up to the order of keys, at every depth,
but has all `children` of items in the same order. Such data is in the grammar of items together,
and describes items that are related in the same way (`Item.Reordered`), whose instructions are
equal up to the order of keys in attributes and values and on which the same is remarked.

Nothing here looks at how the keys are read one after another. The grammar is a condition on each
key, an item holds what is found under each name of its own (`Item.Conserves`), and its attributes
are known by what is found in the layers they are merged from.
-/

import MenuPlan.Proofs.Item.Attributes
import MenuPlan.Proofs.Item.Remarks
import MenuPlan.Proofs.Term.Reordering

namespace MenuPlan

open Fields (SameName)

/-- The values for what is below an item are equal up to the order of keys, but items stay in their
order. -/
inductive Data.BelowReordered (R : Data → Data → Prop) : Data → Data → Prop where
  | items {entries others : List (String × Data)}
      (each : List.Forall₂ (SameName R) entries others) :
      BelowReordered R (.object entries) (.object others)
  | other {value other : Data} (noItems : ∀ entries, value ≠ .object entries)
      (reordered : value.Reordered other) : BelowReordered R value other

/-- The members of an item are equal up to the order of keys, but items below stay in their
order. -/
inductive Item.MemberReordered (R : Data → Data → Prop) : String × Data → String × Data → Prop where
  | children {value other : Data} (below : value.BelowReordered R other) :
      MemberReordered R ("children", value) ("children", other)
  | other {name : String} {value other : Data} (notChildren : name ≠ "children")
      (reordered : value.Reordered other) : MemberReordered R (name, value) (name, other)

/-- The values for an item are equal up to the order of keys, but the items below stay in their
order, at every depth. -/
inductive Data.ItemReordered : Data → Data → Prop where
  | object {members others : Fields Data}
      (each : Fields.Reordered (Item.MemberReordered ItemReordered) members others) :
      ItemReordered (.object members) (.object others)
  | other {value other : Data} (noObject : ∀ members, value ≠ .object members)
      (reordered : value.Reordered other) : ItemReordered value other

/-- The routes are equal up to the order of keys. -/
structure Route.Reordered (route other : Route) : Prop where
  name : other.name = route.name
  parameters : Fields.Reordered (SameName Data.Reordered) route.parameters other.parameters
  absolute : route.absolute.Reordered other.absolute

/-- The services are equal up to the order of keys. -/
structure Service.Reordered (service other : Service) : Prop where
  id : other.id = service.id
  method : other.method = service.method
  parameters : Option.Rel Data.Reordered service.parameters other.parameters

/-- The items are equal up to the order of keys in their options, attributes and values, and so are
the items below, which are in the same order. -/
inductive Item.Reordered : Item → Item → Prop where
  | intro {options otherOptions : Fields Data} {route otherRoute : Option Route}
      {service otherService : Option Service} {expression : Option String}
      {children otherChildren : List (String × Item)} {attributes otherAttributes : Fields Data}
      (ofOptions : Fields.Reordered (SameName Data.Reordered) options otherOptions)
      (ofRoute : Option.Rel Route.Reordered route otherRoute)
      (ofService : Option.Rel Service.Reordered service otherService)
      (ofChildren : List.Forall₂ (SameName Item.Reordered) children otherChildren)
      (ofAttributes : Fields.Reordered (SameName Data.Reordered) attributes otherAttributes) :
      Item.Reordered ⟨options, route, service, expression, children, attributes⟩
        ⟨otherOptions, otherRoute, otherService, expression, otherChildren, otherAttributes⟩

mutual

/-- The instructions are equal up to the order of keys in attributes and values. -/
inductive Instruction.Reordered : Instruction → Instruction → Prop where
  | intro {origin other : Origin} {calls others : List Call} {tags : Tags}
      (ofOrigin : Origin.Reordered origin other)
      (ofCalls : List.Forall₂ Call.Reordered calls others) :
      Instruction.Reordered ⟨origin, calls, tags⟩ ⟨other, others, tags⟩

/-- The origins are of the same kind and equal up to the order of keys. -/
inductive Origin.Reordered : Origin → Origin → Prop where
  | factoryCall {arguments others : List Argument} (targetType : String) (factory : FactoryRef)
      (each : List.Forall₂ Argument.Reordered arguments others) :
      Origin.Reordered (.factoryCall targetType factory arguments)
        (.factoryCall targetType factory others)
  | serviceReference (id : String) : Origin.Reordered (.serviceReference id) (.serviceReference id)
  | expression (source : String) : Origin.Reordered (.expression source) (.expression source)
  | plainMap {attributes others : Fields Term}
      (each : Fields.Reordered (SameName Term.Reordered) attributes others) :
      Origin.Reordered (.plainMap attributes) (.plainMap others)

/-- The arguments are equal up to the order of keys. -/
inductive Argument.Reordered : Argument → Argument → Prop where
  | value {term other : Term} (reordered : term.Reordered other) :
      Argument.Reordered (.value term) (.value other)
  | instruction {inner other : Instruction} (reordered : Instruction.Reordered inner other) :
      Argument.Reordered (.instruction inner) (.instruction other)

/-- The calls are of the same method, with arguments that are equal up to the order of keys. -/
inductive Call.Reordered : Call → Call → Prop where
  | intro {arguments others : List Argument} (method : String)
      (each : List.Forall₂ Argument.Reordered arguments others) :
      Call.Reordered ⟨method, arguments⟩ ⟨method, others⟩

end

/-- Names and records stay what they are in another order of keys, if the members of records do. -/
theorem isNameOrRecord_iff_of_reordered {required : String} {IsMember : String → Data → Prop}
    (memberIff : ∀ name value other, Data.Reordered value other →
      (IsMember name value ↔ IsMember name other))
    {value other : Data} (reordered : value.Reordered other) :
    IsNameOrRecord required IsMember value ↔ IsNameOrRecord required IsMember other := by
  cases reordered with
  | @object members others each =>
      have sameNames := (each.names_perm fun _ _ => SameName.same_name).mem_iff (a := required)
      have sameMembers : (∀ entry ∈ members, IsMember entry.1 entry.2) ↔
          ∀ entry ∈ others, IsMember entry.1 entry.2 := by
        apply each.forall_mem_iff
        rintro _ _ _ ⟨related⟩
        exact memberIff _ _ _ related
      constructor
      · rintro (_ | _ | ⟨isNamed, areMembers⟩)
        exact .record (sameNames.mp isNamed) (sameMembers.mp areMembers)
      · rintro (_ | _ | ⟨isNamed, areMembers⟩)
        exact .record (sameNames.mpr isNamed) (sameMembers.mpr areMembers)
  | array each =>
      constructor
      · rintro ⟨⟩
      · rintro ⟨⟩
  | null | bool | number | string => exact Iff.rfl

theorem Route.isMember_iff_of_reordered (name : String) (value other : Data)
    (reordered : value.Reordered other) : IsMember name value ↔ IsMember name other := by
  constructor <;> intro isMember <;> cases isMember <;> cases reordered <;> constructor
  all_goals assumption

theorem Service.isMember_iff_of_reordered (name : String) (value other : Data)
    (reordered : value.Reordered other) : IsMember name value ↔ IsMember name other := by
  constructor <;> intro isMember <;> cases isMember <;> cases reordered <;> constructor
  all_goals assumption

namespace Item

variable {strict : Bool}

/-- A value has no fault in one order of its keys exactly if it has none in the other, unless it
holds items. -/
theorem hasNoFault_iff_of_reordered {name : String} {value other : Data}
    (noItems : name = "children" → ∀ entries, value ≠ .object entries)
    (reordered : value.Reordered other) :
    HasNoFault strict name value ↔ HasNoFault strict name other := by
  rcases key_cases name with isText | isMap | isFlag | rfl | rfl | rfl | rfl | unknown
  · rw [hasNoFault_text_iff isText, hasNoFault_text_iff isText]
    cases reordered <;> simp
  · rw [hasNoFault_map_iff isMap, hasNoFault_map_iff isMap]
    cases reordered <;> simp
  · rw [hasNoFault_flag_iff isFlag, hasNoFault_flag_iff isFlag]
    cases reordered <;> simp
  · rw [hasNoFault_current_iff, hasNoFault_current_iff]
    cases reordered <;> simp
  · rw [hasNoFault_route_iff, hasNoFault_route_iff]
    exact isNameOrRecord_iff_of_reordered Route.isMember_iff_of_reordered reordered
  · rw [hasNoFault_service_iff, hasNoFault_service_iff]
    exact isNameOrRecord_iff_of_reordered Service.isMember_iff_of_reordered reordered
  · have noObject := noItems rfl
    rw [hasNoFault_children_iff, hasNoFault_children_iff]
    cases reordered with
    | object => exact absurd rfl (noObject _)
    | null | bool | number | string | array => simp
  · rw [hasNoFault_unknown_iff unknown, hasNoFault_unknown_iff unknown]

theorem MemberReordered.same_name {R : Data → Data → Prop} {entry other : String × Data}
    (reordered : MemberReordered R entry other) : other.1 = entry.1 := by
  cases reordered <;> rfl

theorem MemberReordered.below {R : Data → Data → Prop} {value other : Data}
    (reordered : MemberReordered R ("children", value) ("children", other)) :
    value.BelowReordered R other := by
  cases reordered with
  | children below => exact below
  | other notChildren => exact absurd rfl notChildren

theorem MemberReordered.reordered_of_ne {R : Data → Data → Prop} {name : String}
    {value other : Data} (reordered : MemberReordered R (name, value) (name, other))
    (notChildren : name ≠ "children") : value.Reordered other := by
  cases reordered with
  | children => exact absurd rfl notChildren
  | other _ reordered => exact reordered

/-- Data is in the grammar of items in one order of its keys exactly if it is in the other. -/
theorem isItem_iff_of_reordered {raw other : Data} (reordered : raw.ItemReordered other) :
    IsItem strict raw ↔ IsItem strict other := by
  induction raw using Data.itemInduction generalizing other with
  | step raw ih =>
    cases reordered with
    | @object members others each =>
        rw [isItem_object_iff, isItem_object_iff]
        apply each.forall_mem_iff
        intro entry member other counterpart
        cases counterpart with
        | other notChildren reordered =>
            exact hasNoFault_iff_of_reordered (fun same => absurd same notChildren) reordered
        | children below =>
            cases below with
            | other noItems reordered =>
                exact hasNoFault_iff_of_reordered (fun _ => noItems) reordered
            | @items entries others each =>
                rw [hasNoFault_items_iff, hasNoFault_items_iff]
                apply (Fields.Reordered.of_forall₂ each).forall_mem_iff
                rintro ⟨name, value⟩ inEntries _ ⟨related⟩
                exact ih members entries rfl member _ inEntries related
    | other noObject reordered =>
        cases reordered with
        | object => exact absurd rfl (noObject _)
        | array =>
            constructor
            · rintro ⟨⟩
            · rintro ⟨⟩
        | null | bool | number | string => exact Iff.rfl

end Item

/-! ## What items are read -/

/-- Related values are found under a name, or the related defaults if there are none. -/
theorem Fields.Reordered.getD {α β : Type} {P : String × α → String × β → Prop}
    {R : α → β → Prop} {fields : Fields α} {others : Fields β}
    (sameName : ∀ entry other, P entry other → other.1 = entry.1)
    (reordered : Fields.Reordered P fields others) (distinct : Fields.Distinct fields)
    {name : String} (related : ∀ value other, P (name, value) (name, other) → R value other)
    {default : α} {otherDefault : β} (byDefault : R default otherDefault) :
    R ((Fields.get? fields name).getD default) ((Fields.get? others name).getD otherDefault) := by
  have found := reordered.get? sameName distinct name
  generalize Fields.get? fields name = here at found ⊢
  generalize Fields.get? others name = there at found ⊢
  cases found with
  | none => exact byDefault
  | some counterpart => exact related _ _ counterpart

namespace Data.Reordered

/-- Values are found in another order, or the same default in their place. -/
theorem getD {members others : Fields Data}
    (each : Fields.Reordered (SameName Reordered) members others)
    (distinct : Fields.Distinct members) (name : String) (default : Data) :
    Reordered ((Fields.get? members name).getD default) ((Fields.get? others name).getD default) :=
  each.getD (fun _ _ => SameName.same_name) distinct (fun _ _ => Fields.sameName_iff.mp)
    (.refl default)

/-- Texts, where null stands for none, have no other order. -/
theorem text_eq {text other : Option String}
    (reordered : Reordered (text.elim .null .string) (other.elim .null .string)) :
    other = text := by
  cases text <;> cases other <;> cases reordered <;> rfl

/-- Objects in another order have their members in another order. -/
theorem members {members others : Fields Data}
    (reordered : Reordered (.object members) (.object others)) :
    Fields.Reordered (SameName Reordered) members others := by
  cases reordered
  assumption

/-- It makes no difference if null stands for none. -/
theorem filter_ne_null {value other : Option Data} (reordered : Option.Rel Reordered value other) :
    Option.Rel Reordered (value.filter (· ≠ .null)) (other.filter (· ≠ .null)) := by
  cases reordered with
  | none => exact .none
  | @some value other reordered =>
      simp only [Option.filter_some, ne_eq, reordered.eq_null_iff]
      split_ifs
      · exact .some reordered
      · exact .none

end Data.Reordered

/-- Data in another order describes a route in another order. -/
theorem Route.reordered_of_conserves {raw other : Data} {route changed : Option Route}
    (reordered : raw.Reordered other) (distinct : raw.Distinct) (conserves : Conserves raw route)
    (otherConserves : Conserves other changed) : Option.Rel Route.Reordered route changed := by
  cases conserves with
  | none =>
      cases reordered
      cases otherConserves
      exact .none
  | name text =>
      cases reordered
      cases otherConserves
      exact .some ⟨rfl, .nil, .bool false⟩
  | @record entries route _ isName isParameters isAbsolute =>
      cases reordered with
      | @object _ others each =>
          cases otherConserves with
          | @record _ changed _ otherName otherParameters otherAbsolute =>
              have found := Data.Reordered.getD each (Data.distinct_object_iff.mp distinct).1
              have name := found "name" .null
              have parameters := found "parameters" (.object [])
              have absolute := found "absolute" (.bool false)
              rw [isName, otherName] at name
              rw [isParameters, otherParameters] at parameters
              rw [isAbsolute, otherAbsolute] at absolute
              have sameName : some changed.name = some route.name := Data.Reordered.text_eq name
              exact .some ⟨Option.some.inj sameName, parameters.members, absolute⟩

/-- Data in another order describes a service in another order. -/
theorem Service.reordered_of_conserves {raw other : Data} {service changed : Option Service}
    (reordered : raw.Reordered other) (distinct : raw.Distinct) (conserves : Conserves raw service)
    (otherConserves : Conserves other changed) :
    Option.Rel Service.Reordered service changed := by
  cases conserves with
  | none =>
      cases reordered
      cases otherConserves
      exact .none
  | name text =>
      cases reordered
      cases otherConserves
      exact .some ⟨rfl, rfl, .none⟩
  | @record entries service _ isId isMethod isParameters =>
      cases reordered with
      | @object _ others each =>
          cases otherConserves with
          | @record _ changed _ otherId otherMethod otherParameters =>
              have distinctEntries := (Data.distinct_object_iff.mp distinct).1
              have found := Data.Reordered.getD each distinctEntries
              have id := found "id" .null
              have method := found "method" .null
              have parameters := Data.Reordered.filter_ne_null
                (each.get?_of_sameName distinctEntries "parameters")
              rw [isId, otherId] at id
              rw [isMethod, otherMethod] at method
              rw [isParameters, otherParameters] at parameters
              have sameId : some changed.id = some service.id := Data.Reordered.text_eq id
              exact .some ⟨Option.some.inj sameId, method.text_eq, parameters⟩

namespace Item

/-- The value of a key other than `children`, or the default in its place, is in another order. -/
theorem getD_reordered {R : Data → Data → Prop} {members others : Fields Data}
    (each : Fields.Reordered (MemberReordered R) members others)
    (distinct : Fields.Distinct members) {name : String} (notChildren : name ≠ "children")
    (default : Data) :
    Data.Reordered ((Fields.get? members name).getD default)
      ((Fields.get? others name).getD default) :=
  each.getD (fun _ _ => MemberReordered.same_name) distinct
    (fun _ _ related => related.reordered_of_ne notChildren) (.refl default)

/-- The value for what is below is in another order, but not the items in it. -/
theorem getD_children_reordered {R : Data → Data → Prop} {members others : Fields Data}
    (each : Fields.Reordered (MemberReordered R) members others)
    (distinct : Fields.Distinct members) :
    Data.BelowReordered R ((Fields.get? members "children").getD .null)
      ((Fields.get? others "children").getD .null) :=
  each.getD (fun _ _ => MemberReordered.same_name) distinct
    (fun _ _ related => related.below) (.other nofun .null)

/-- The members that become attributes are in another order. -/
theorem attributes_reordered {R : Data → Data → Prop} {members others : Fields Data}
    (each : Fields.Reordered (MemberReordered R) members others) :
    Fields.Reordered (SameName Data.Reordered) (attributesOf members) (attributesOf others) := by
  apply each.filter (fun name => decide (name ∉ ownKeys)) fun _ _ => MemberReordered.same_name
  rintro ⟨name, value⟩ ⟨other, otherValue⟩ isAttribute counterpart
  obtain rfl : other = name := counterpart.same_name
  have notChildren : other ≠ "children" := by
    rintro rfl
    have isOwn : "children" ∈ ownKeys := by decide
    exact of_decide_eq_true isAttribute isOwn
  exact .intro (counterpart.reordered_of_ne notChildren)

/-- The items below are in another order of keys one by one, if each of them is. -/
theorem ConservesEach.reordered {R : Data → Data → Prop} {entries others : List (String × Data)}
    {children changed : List (String × Item)} (each : List.Forall₂ (SameName R) entries others)
    (conserves : ConservesEach entries children) (otherConserves : ConservesEach others changed)
    (related : ∀ entry ∈ entries, ∀ other, R entry.2 other → ∀ item changed,
      Conserves entry.2 item → Conserves other changed → item.Reordered changed) :
    List.Forall₂ (SameName Item.Reordered) children changed := by
  induction each generalizing children changed with
  | nil =>
      cases conserves
      cases otherConserves
      exact .nil
  | cons counterpart _ ih =>
      cases conserves with
      | cons first rest =>
          cases otherConserves with
          | cons otherFirst otherRest =>
              obtain ⟨sameValue⟩ := counterpart
              have ofFirst := related _ List.mem_cons_self _ sameValue _ _ first otherFirst
              have ofRest := ih rest otherRest fun entry member =>
                related entry (List.mem_cons_of_mem _ member)
              exact .cons (.intro ofFirst) ofRest

/-- So are all items below a value. -/
theorem ConservesBelow.reordered {R : Data → Data → Prop} {value other : Data}
    {children changed : List (String × Item)} (below : value.BelowReordered R other)
    (conserves : ConservesBelow value children) (otherConserves : ConservesBelow other changed)
    (related : ∀ entries, value = .object entries → ∀ entry ∈ entries, ∀ other, R entry.2 other →
      ∀ item changed, Conserves entry.2 item → Conserves other changed → item.Reordered changed) :
    List.Forall₂ (SameName Item.Reordered) children changed := by
  cases conserves with
  | none =>
      cases below with
      | other _ reordered =>
          cases reordered
          cases otherConserves
          exact .nil
  | items conserves =>
      cases below with
      | other noItems => exact absurd rfl (noItems _)
      | items each =>
          cases otherConserves with
          | items otherConserves => exact conserves.reordered each otherConserves (related _ rfl)

/-- A member, or the default in its place, has distinct names if the object has. -/
theorem distinct_getD {members : Fields Data} (distinct : (Data.object members).Distinct)
    (name : String) (default : Data) (byDefault : default.Distinct) :
    Data.Distinct ((Fields.get? members name).getD default) := by
  cases found : Fields.get? members name with
  | none => exact byDefault
  | some value =>
      exact (Data.distinct_object_iff.mp distinct).2 _ (Fields.mem_of_get?_eq_some found)

/-- Members in another order make an item in another order, if the items below it are. -/
theorem reordered_of_members {R : Data → Data → Prop} {members others : Fields Data}
    {item changed : Item} (each : Fields.Reordered (MemberReordered R) members others)
    (distinct : (Data.object members).Distinct) (conserves : Conserves (.object members) item)
    (otherConserves : Conserves (.object others) changed)
    (below : List.Forall₂ (SameName Item.Reordered) item.children changed.children) :
    item.Reordered changed := by
  have found {name : String} (notChildren : name ≠ "children") (default : Data) :=
    getD_reordered each (Data.distinct_object_iff.mp distinct).1 notChildren default
  obtain ⟨_, _, _, _, _, _⟩ := item
  obtain ⟨_, _, _, _, _, _⟩ := changed
  cases conserves with
  | object isOptions isRoute isService isExpression _ isAttributes =>
      cases otherConserves with
      | object otherOptions otherRoute otherService otherExpression _ otherAttributes =>
          have options := found (by decide : "options" ≠ _) (.object [])
          rw [isOptions, otherOptions] at options
          have route := Route.reordered_of_conserves (found (by decide) .null)
            (distinct_getD distinct "route" .null trivial) isRoute otherRoute
          have service := Service.reordered_of_conserves (found (by decide) .null)
            (distinct_getD distinct "service" .null trivial) isService otherService
          have expression := found (by decide : "expression" ≠ _) .null
          rw [isExpression, otherExpression] at expression
          obtain rfl := expression.text_eq
          have attributes := attributes_reordered each
          subst isAttributes otherAttributes
          exact .intro options.members route service below attributes

/-- Data in another order describes an item in another order. -/
theorem reordered_of_conserves {raw other : Data} {item changed : Item}
    (reordered : raw.ItemReordered other) (distinct : raw.Distinct)
    (conserves : Conserves raw item) (otherConserves : Conserves other changed) :
    item.Reordered changed := by
  induction raw using Data.itemInduction generalizing other item changed with
  | step raw ih =>
    cases reordered with
    | other noObject reordered =>
        cases conserves with
        | empty =>
            cases reordered
            cases otherConserves
            exact .intro .nil .none .none .nil .nil
        | object => exact absurd rfl (noObject _)
    | @object members others each =>
        have distinctBelow := distinct_getD distinct "children" .null trivial
        have inOrder := getD_children_reordered each (Data.distinct_object_iff.mp distinct).1
        apply reordered_of_members each distinct conserves otherConserves
        apply conserves.conservesBelow_children.reordered inOrder
          otherConserves.conservesBelow_children
        intro entries isObject entry inEntries other related _ _
        rw [isObject, Data.distinct_object_iff] at distinctBelow
        exact ih members entries rfl (Data.mem_of_getD_eq_object isObject) entry inEntries related
          (distinctBelow.2 entry inEntries)

/-! ## What items become -/

/-- No option or attribute is there twice, at any depth. -/
def HasDistinctKeys (item : Item) : Prop :=
  item.Everywhere fun item => Fields.Distinct item.options ∧ Fields.Distinct item.attributes

/-- Items have distinct keys if the data that they are read from has. -/
theorem HasDistinctKeys.of_conserves {raw : Data} {item : Item} (distinct : raw.Distinct)
    (conserves : Conserves raw item) : item.HasDistinctKeys := by
  refine Conserves.everywhere ⟨List.nodup_nil, List.nodup_nil⟩ ?_ distinct conserves
  intro members item distinct conserves
  cases conserves with
  | object options _ _ _ _ attributes =>
      have noNames : (Data.object []).Distinct := ⟨List.nodup_nil, trivial⟩
      have distinctOptions := distinct_getD distinct "options" (.object []) noNames
      rw [options] at distinctOptions
      rw [attributes]
      exact ⟨distinctOptions.1, distinct.1.filter _⟩

variable {item other : Item}

/-- Items in another order have all their parts in another order. -/
theorem Reordered.parts (reordered : item.Reordered other) :
    Fields.Reordered (SameName Data.Reordered) item.options other.options ∧
      Option.Rel Route.Reordered item.route other.route ∧
      Option.Rel Service.Reordered item.service other.service ∧
      other.expression = item.expression ∧
      List.Forall₂ (SameName Item.Reordered) item.children other.children ∧
      Fields.Reordered (SameName Data.Reordered) item.attributes other.attributes := by
  cases reordered with
  | intro ofOptions ofRoute ofService ofChildren ofAttributes =>
      exact ⟨ofOptions, ofRoute, ofService, rfl, ofChildren, ofAttributes⟩

/-- The parts of a route that are attributes are in another order. -/
theorem routeLayer_reordered (reordered : Option.Rel Route.Reordered item.route other.route) :
    Fields.Reordered (SameName Term.Reordered) item.routeLayer other.routeLayer := by
  rw [routeLayer, routeLayer]
  generalize item.route = route at reordered ⊢
  generalize other.route = changed at reordered ⊢
  cases reordered with
  | none => exact .nil
  | some reordered =>
      obtain ⟨isName, parameters, absolute⟩ := reordered
      apply Fields.Reordered.of_forall₂
      rw [Option.elim_some, Option.elim_some, Route.attributes, Route.attributes, isName,
        Term.ofMembers_eq_mapValues, Term.ofMembers_eq_mapValues]
      have ofParameters := parameters.mapValues fun _ _ _ => Term.Reordered.ofData
      exact .cons (.intro (.ofText _))
        (.cons (.intro (.mapping ofParameters)) (.cons (.intro (.ofData absolute)) .nil))

/-- Attributes that are merged from layers in another order are in another order. -/
theorem Reordered.flatAttributes (reordered : item.Reordered other)
    (distinctOptions : Fields.Distinct item.options)
    (distinct : Fields.Distinct item.attributes) :
    Fields.Reordered (SameName Term.Reordered) item.flatAttributes other.flatAttributes := by
  obtain ⟨options, route, -, -, -, attributes⟩ := reordered.parts
  have distinctOther : Fields.Distinct other.attributes :=
    (attributes.names_perm fun _ _ => SameName.same_name).nodup distinct
  have distinctOtherOptions : Fields.Distinct other.options :=
    (options.names_perm fun _ _ => SameName.same_name).nodup distinctOptions
  apply Fields.reordered_of_get? (distinct_flatAttributes distinctOptions)
    (distinct_flatAttributes distinctOtherOptions)
  intro key
  simp only [Fields.sameName_iff]
  rw [get?_flatAttributes distinct, get?_flatAttributes distinctOther]
  split_ifs
  · exact .none
  · have inRoute := (routeLayer_reordered route).get?_of_sameName item.distinct_routeLayer key
    have inOwn := optionRel_map (attributes.get?_of_sameName distinct key)
      fun _ _ => Term.Reordered.literal
    have inOptions := optionRel_map (options.get?_of_sameName distinctOptions key)
      fun _ _ => Term.Reordered.ofData
    exact optionRel_or inRoute (optionRel_or inOwn inOptions)

end Item

/-- The child in another order is attached under the same name or without one. -/
theorem Call.Reordered.addChild (name : String) {child other : Instruction}
    (reordered : child.Reordered other) :
    Call.Reordered (addChild name child) (addChild name other) := by
  have isArgument := Argument.Reordered.instruction reordered
  cases reordered with
  | intro ofOrigin =>
      cases ofOrigin with
      | factoryCall | plainMap =>
          exact .intro _ (.cons (.value (.literal (.string name))) (.cons isArgument .nil))
      | serviceReference | expression => exact .intro _ (.cons isArgument .nil)

/-- A service in another order becomes an instruction in another order. -/
theorem Service.Reordered.instruction {service other : Service}
    (reordered : service.Reordered other) (settings : Settings) :
    Instruction.Reordered (service.instruction settings) (other.instruction settings) := by
  obtain ⟨id, method, parameters⟩ := reordered
  have sameMethod : other.factoryMethod = service.factoryMethod := by
    rw [factoryMethod, factoryMethod, method]
  rw [Service.instruction, Service.instruction, sameMethod, id]
  cases service.factoryMethod with
  | none => exact .intro (.serviceReference _) .nil
  | some method =>
      refine .intro (.factoryCall _ _ ?_) .nil
      generalize service.parameters = value at parameters ⊢
      generalize other.parameters = changed at parameters ⊢
      cases parameters with
      | none => exact .nil
      | some reordered =>
          rw [Option.elim_some, Option.elim_some, List.forall₂_map_left_iff,
            List.forall₂_map_right_iff]
          exact (Term.Reordered.ofData reordered).arguments.imp fun _ _ => .value

/-- The same is remarked on a service in another order. -/
theorem Service.Reordered.warnings {service other : Service} (reordered : service.Reordered other)
    (location : String) : service.warnings location = other.warnings location := by
  obtain ⟨id, method, parameters⟩ := reordered
  rw [Service.warnings, Service.warnings, factoryMethod, factoryMethod, id, method,
    isSome_eq_of_optionRel parameters]

namespace Item

variable {item other : Item}

/-- What is assembled from attributes and calls in another order is in another order. -/
theorem reordered_assemble (settings : Settings) (name : String)
    (reordered : Fields.Reordered (SameName Term.Reordered) item.flatAttributes
      other.flatAttributes) {calls others : List Call}
    (each : List.Forall₂ Call.Reordered calls others) :
    Instruction.Reordered (assemble settings name item.flatAttributes calls)
      (assemble settings name other.flatAttributes others) := by
  cases each with
  | nil => exact .intro (.plainMap reordered) .nil
  | cons first rest =>
      rw [assemble_flatAttributes name item (List.cons_ne_nil _ _),
        assemble_flatAttributes name other (List.cons_ne_nil _ _)]
      have ofName : Term.Reordered (.literal (.string name)) (.literal (.string name)) :=
        .literal (.string name)
      exact .intro (.factoryCall _ _ (.cons (.value ofName) (.cons (.value (.mapping reordered))
        .nil))) (.cons first rest)

/-- An item in another order becomes an instruction in another order. -/
theorem Reordered.instruction (reordered : item.Reordered other) (distinct : item.HasDistinctKeys)
    (settings : Settings) (name : String) :
    Instruction.Reordered (item.instruction settings name) (other.instruction settings name) := by
  induction item using treeInduction generalizing other name with
  | step item ih =>
    obtain ⟨-, -, ofService, sameExpression, ofChildren, -⟩ := reordered.parts
    obtain ⟨⟨distinctOptions, distinctAttributes⟩, distinctBelow⟩ := distinct
    have sameSource : other.source = item.source := by
      rw [Item.source, Item.source, sameExpression]
    generalize provided : item.service = service at ofService
    generalize otherProvided : other.service = changed at ofService
    cases ofService with
    | some ofService =>
        rw [instruction_of_service settings name provided,
          instruction_of_service settings name otherProvided]
        exact ofService.instruction settings
    | none =>
        cases isSource : item.source with
        | some source =>
            rw [instruction_of_source settings name provided isSource,
              instruction_of_source settings name otherProvided (sameSource.trans isSource)]
            exact .intro (.expression source) .nil
        | none =>
            rw [instruction_of_own settings name provided isSource,
              instruction_of_own settings name otherProvided (sameSource.trans isSource)]
            apply reordered_assemble settings name
              (reordered.flatAttributes distinctOptions distinctAttributes)
            rw [childCalls_eq_map, childCalls_eq_map, List.forall₂_map_left_iff,
              List.forall₂_map_right_iff]
            have each : ∀ entry ∈ item.children, ∀ changed, entry.2.Reordered changed →
                Instruction.Reordered (entry.2.instruction settings entry.1)
                  (changed.instruction settings entry.1) :=
              fun entry member _ ofEntry => ih entry member ofEntry (distinctBelow entry member) _
            refine ((List.forall₂_and_left _ _).mpr ⟨each, ofChildren⟩).imp ?_
            rintro ⟨childName, child⟩ _ ⟨isReordered, ⟨ofChild⟩⟩
            exact .addChild childName (isReordered _ ofChild)

/-- The same keys drive the construction of an item in another order. -/
theorem Reordered.drivingKeys (reordered : item.Reordered other) :
    item.drivingKeys = other.drivingKeys := by
  obtain ⟨-, -, ofService, sameExpression, ofChildren, -⟩ := reordered.parts
  have sameService := isSome_eq_of_optionRel ofService
  have sameChildren : item.children.isEmpty = other.children.isEmpty := by
    generalize item.children = children at ofChildren ⊢
    generalize other.children = changed at ofChildren ⊢
    cases ofChildren <;> rfl
  rw [Item.drivingKeys, Item.drivingKeys, Item.source, Item.source, sameService, sameExpression,
    sameChildren]

/-- The same is remarked on an item in another order. -/
theorem Reordered.warnings (reordered : item.Reordered other) (location : String) :
    item.warnings location = other.warnings location := by
  induction item using treeInduction generalizing other location with
  | step item ih =>
    have own : precedenceWarnings location item = precedenceWarnings location other := by
      rw [precedenceWarnings, precedenceWarnings, reordered.drivingKeys]
    obtain ⟨-, -, ofService, sameExpression, ofChildren, -⟩ := reordered.parts
    generalize provided : item.service = service at ofService
    generalize otherProvided : other.service = changed at ofService
    cases ofService with
    | some ofService =>
        rw [warnings_of_service location provided, warnings_of_service location otherProvided, own,
          ofService.warnings]
    | none =>
        by_cases blank : IsBlank item.expression
        · rw [warnings_of_own location provided blank,
            warnings_of_own location otherProvided (sameExpression ▸ blank), own,
            childWarnings_eq_flatMap, childWarnings_eq_flatMap, List.flatMap_def, List.flatMap_def]
          have each : ∀ entry ∈ item.children, ∀ changed, entry.2.Reordered changed →
              ∀ location, Item.warnings location entry.2 = Item.warnings location changed :=
            fun entry member _ ofEntry => ih entry member ofEntry
          congr 2
          rw [← List.forall₂_eq_eq_eq, List.forall₂_map_left_iff, List.forall₂_map_right_iff]
          refine ((List.forall₂_and_left _ _).mpr ⟨each, ofChildren⟩).imp ?_
          rintro ⟨childName, child⟩ _ ⟨sameRemarks, ⟨ofChild⟩⟩
          exact sameRemarks _ ofChild _
        · rw [warnings_of_source location provided blank,
            warnings_of_source location otherProvided (sameExpression ▸ blank), own]

/-- An item with a route and with another item below that has two keys. -/
def firstOrder : Data :=
  .object [
    ("label", .string "Home"),
    ("route", .object [("name", .string "home"), ("absolute", .bool true)]),
    ("children", .object [
      ("news", .object [
        ("uri", .string "/news"), ("extras", .object [("icon", .null), ("badge", .null)])]),
      ("about", .null)])]

/-- The same item, with its keys in another order at every depth. -/
def otherOrder : Data :=
  .object [
    ("children", .object [
      ("news", .object [
        ("extras", .object [("badge", .null), ("icon", .null)]), ("uri", .string "/news")]),
      ("about", .null)]),
    ("label", .string "Home"),
    ("route", .object [("absolute", .bool true), ("name", .string "home")])]

/-- The order of the keys of an item has no meaning, at any depth, as long as the items below stay
in their order. In either mode data describes an item in both orders or in none. If it does, the
instructions are equal up to the order of keys in attributes and values, and the same is remarked in
the same order. -/
theorem order_of_keys_has_no_meaning (strict : Bool) (location : String) (raw other : Data)
    (distinct : raw.Distinct) (otherDistinct : other.Distinct)
    (reordered : raw.ItemReordered other) :
    ((∃ item, normalize strict location raw = .ok item) ↔
      ∃ changed, normalize strict location other = .ok changed) ∧
    ∀ item changed, normalize strict location raw = .ok item →
      normalize strict location other = .ok changed →
        (∀ settings name, Instruction.Reordered (item.instruction settings name)
          (changed.instruction settings name)) ∧
        ∀ place, item.warnings place = changed.warnings place := by
  constructor
  · simp only [normalize_eq_ok_iff, exists_and_left]
    have sameGrammar : IsItem strict raw ↔ IsItem strict other := isItem_iff_of_reordered reordered
    constructor
    · rintro ⟨isItem, -⟩
      exact ⟨sameGrammar.mp isItem, exists_read_expand (sameGrammar.mp isItem)⟩
    · rintro ⟨isItem, -⟩
      exact ⟨sameGrammar.mpr isItem, exists_read_expand (sameGrammar.mpr isItem)⟩
  · intro item changed isNormal isNormalToo
    obtain ⟨isItem, isRead⟩ := normalize_eq_ok_iff.mp isNormal
    obtain ⟨isItemToo, isReadToo⟩ := normalize_eq_ok_iff.mp isNormalToo
    have conserves := conserves_of_read distinct isItem isRead
    have ofItem := reordered_of_conserves reordered distinct conserves
      (conserves_of_read otherDistinct isItemToo isReadToo)
    exact ⟨ofItem.instruction (.of_conserves distinct conserves), ofItem.warnings⟩

/-- The item becomes the same in both orders, up to the order of its attributes and of the keys in
them. -/
theorem firstOrder_otherOrder_has_no_meaning :
    firstOrder.ItemReordered otherOrder ∧ ∃ item changed,
      normalize true "x" firstOrder = .ok item ∧ normalize true "x" otherOrder = .ok changed ∧
        Instruction.Reordered (item.instruction {} "home") (changed.instruction {} "home") ∧
        item.warnings "x" = changed.warnings "x" := by
  have distinct : firstOrder.Distinct := by
    simp [firstOrder, Data.Distinct, Data.DistinctMembers, Fields.Distinct]
  have otherDistinct : otherOrder.Distinct := by
    simp [otherOrder, Data.Distinct, Data.DistinctMembers, Fields.Distinct]
  have reordered : firstOrder.ItemReordered otherOrder := by
    refine .object (.cons [_, _] [] (.children (.items (.cons (.intro (.object ?_)) (.cons
      (.intro (.other (by rintro _ ⟨⟩) .null)) .nil)))) (.cons [] [_] (.other (by decide) (.refl _))
      (.cons [] [] (.other (by decide) (.object ?_)) .nil)))
    · refine .cons [_] [] (.other (by decide) (.object ?_)) (.cons [] []
        (.other (by decide) (.refl _)) .nil)
      exact .cons [_] [] (.intro .null) (.cons [] [] (.intro .null) .nil)
    · exact .cons [_] [] (.intro (.bool true)) (.cons [] [] (.intro (.string "home")) .nil)
  obtain ⟨sameGrammar, same⟩ :=
    order_of_keys_has_no_meaning true "x" firstOrder otherOrder distinct otherDistinct reordered
  have passed : check (.item true) "x" firstOrder = .ok () := by cbv
  have inGrammar := check_eq_ok_iff.mp passed
  obtain ⟨item, isRead⟩ := exists_read_expand inGrammar
  have isItem : normalize true "x" firstOrder = .ok item :=
    normalize_eq_ok_iff.mpr ⟨inGrammar, isRead⟩
  obtain ⟨changed, isChanged⟩ := sameGrammar.mp ⟨item, isItem⟩
  obtain ⟨sameInstruction, sameRemarks⟩ := same item changed isItem isChanged
  exact ⟨reordered, item, changed, isItem, isChanged, sameInstruction {} "home", sameRemarks "x"⟩

end Item

end MenuPlan

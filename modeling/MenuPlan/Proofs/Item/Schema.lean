/-
# What the schema documents say

`Schema.holds` gives each keyword of a schema document its meaning, without regard to the grammar
that the document was written for. A reference to the definition of items is judged by a predicate
that is left open; `Schema.IsMeaning` closes it again: the predicate has to pick the values of which
the definition holds. A definition that refers to itself could have several such meanings or none.

The main result is that the documents for items and for breadcrumbs describe the grammars that find
faults: the reference has exactly one meaning, because every reference leads to a smaller value, and
with it the document holds of a value exactly if the grammar finds no fault with it.
-/

import MenuPlan.Proofs.Item.Strictness

namespace MenuPlan

namespace Schema

/-- Whether a value is of the type with a name. -/
def isOfType : String → Data → Bool
  | "null", .null | "boolean", .bool _ | "object", .object _ | "string", .string _ => true
  | _, _ => false

/-- `type`: the value is of the type, or of one of the types. -/
def fitsType : Data → Data → Bool
  | .string name, value => isOfType name value
  | .array names, value => names.any fun
      | .string name => isOfType name value
      | _ => false
  | _, _ => false

/-- `minLength`: if the value is a string, it has so many characters. -/
def isLongEnough : Data → Data → Bool
  | .number (.int least _), .string text => least ≤ text.length
  | _, _ => true

/-- `required`: if the value is an object, it has members with these names. -/
def hasRequired : Data → Data → Bool
  | .array names, .object members => names.all fun
      | .string name => (Fields.get? members name).isSome
      | _ => false
  | _, _ => true

/-- The members of an object. No other value has any, and what is said of members says nothing of
it. -/
def membersOf : Data → Fields Data
  | .object members => members
  | _ => []

/-- The names for which a document has properties. -/
def propertyNames (keywords : Fields Data) : List String :=
  ((Fields.get? keywords "properties").map membersOf).elim [] Fields.names

section

variable (isItem : Data → Bool)

mutual

/-- Whether a document holds of a value. -/
def holds : Data → Data → Bool
  | .bool allowed, _ => allowed
  | .object keywords, value => holdEach (propertyNames keywords) keywords value
  | _, _ => false
termination_by structural document => document

/-- Whether all keywords of a document hold of a value. The names are those for which the document
has properties; the other members of an object are the additional ones. A document with a keyword
that is not explained here holds of nothing. -/
def holdEach (named : List String) : List (String × Data) → Data → Bool
  | [], _ => true
  | ("$defs", _) :: rest, value => holdEach named rest value
  | ("$ref", .string "#/$defs/item") :: rest, value => isItem value && holdEach named rest value
  | ("type", argument) :: rest, value => fitsType argument value && holdEach named rest value
  | ("minLength", argument) :: rest, value =>
      isLongEnough argument value && holdEach named rest value
  | ("required", argument) :: rest, value =>
      hasRequired argument value && holdEach named rest value
  | ("properties", .object properties) :: rest, value =>
      propertiesHold properties (membersOf value) && holdEach named rest value
  | ("additionalProperties", additional) :: rest, value =>
      ((membersOf value).all fun entry => entry.1 ∈ named || holds additional entry.2)
        && holdEach named rest value
  | ("oneOf", .array alternatives) :: rest, value =>
      holdCount alternatives value == 1 && holdEach named rest value
  | _ :: _, _ => false
termination_by structural keywords => keywords

/-- Whether the members with these names have the properties that are asked of them. -/
def propertiesHold : List (String × Data) → Fields Data → Bool
  | [], _ => true
  | (name, property) :: rest, members =>
      (members.all fun entry => entry.1 ≠ name || holds property entry.2)
        && propertiesHold rest members
termination_by structural properties => properties

/-- How many of the documents hold of a value. -/
def holdCount : List Data → Data → Nat
  | [], _ => 0
  | alternative :: rest, value => (holds alternative value).toNat + holdCount rest value
termination_by structural alternatives => alternatives

end

end

/-- The definition of items in a document. -/
def definition? : Data → Option Data
  | .object keywords => (Fields.get? keywords "$defs").bind fun definitions =>
      Fields.get? (membersOf definitions) "item"
  | _ => none

/-- The reference in a document means the values of which the definition holds, where the reference
in the definition means the same. -/
def IsMeaning (document : Data) (isItem : Data → Bool) : Prop :=
  ∃ definition, definition? document = some definition ∧
    ∀ value, isItem value = holds isItem definition value

/-- A document describes a grammar if its reference has one meaning, and the document holds of the
values with which the grammar finds no fault. -/
structure Describes (document : Data) (grammar : Grammar) : Prop where
  existsUnique_meaning : ∃! isItem, IsMeaning document isItem
  holds_iff : ∀ isItem, IsMeaning document isItem →
    ∀ value, holds isItem document value = true ↔ grammar.fault? value = none

/-- The names of kinds are those of types. -/
theorem isOfType_name (kind : Kind) (value : Data) :
    isOfType kind.name value = kind.includes value := by
  cases kind <;> cases value <;> rfl

/-- So the kinds that a shape allows are the types that its document names. -/
theorem fitsType_kindsToData (allowed : List Kind) (value : Data) :
    fitsType (Shape.kindsToData allowed) value = allowed.any (·.includes value) := by
  rcases allowed with _ | ⟨kind, _ | ⟨other, rest⟩⟩
  · rfl
  · simp only [Shape.kindsToData, fitsType, isOfType_name, List.any_cons, List.any_nil,
      Bool.or_false]
  · simp only [Shape.kindsToData, fitsType, List.any_map, Function.comp_def, isOfType_name]

end Schema

/-- A shape that says nothing of items, and has no two members with one name. -/
inductive Shape.IsPlain : Shape → Prop where
  | anything : IsPlain .anything
  | kinds (allowed : List Kind) : IsPlain (.kinds allowed)
  | nonEmptyText : IsPlain .nonEmptyText
  | record (required : String) {members : List (String × Shape)}
      (distinct : Fields.Distinct members) (each : ∀ member ∈ members, IsPlain member.2) :
      IsPlain (.record required members)
  | oneOf {alternatives : List Shape} (each : ∀ shape ∈ alternatives, IsPlain shape) :
      IsPlain (.oneOf alternatives)

/-- Under distinct names, what is said of the entries with a name is said of what is looked up. -/
theorem Fields.forall_named_iff {α : Type} {fields : Fields α} (distinct : Distinct fields)
    {name : String} {value : α} (found : fields.lookup name = some value) {P : α → Prop} :
    (∀ entry ∈ fields, name = entry.1 → P entry.2) ↔ P value := by
  have member := mem_of_lookup_eq_some found
  constructor
  · intro each
    exact each _ member rfl
  · rintro holds ⟨_, other⟩ inFields rfl
    have same := get?_eq_some_of_mem distinct inFields
    rw [get?_eq_some_of_mem distinct member] at same
    cases same
    exact holds

namespace Schema

variable {isItem : Data → Bool} {value : Data}

/-- Properties are asked of every member with the name. -/
theorem propertiesHold_iff {members : List (String × Shape)} {entries : Fields Data} :
    propertiesHold isItem (Shape.membersToData members) entries = true ↔
      ∀ entry ∈ entries, ∀ member ∈ members,
        entry.1 = member.1 → holds isItem member.2.toData entry.2 = true := by
  induction members with
  | nil => simp [Shape.membersToData, propertiesHold]
  | cons member rest ih =>
      rw [Shape.membersToData, propertiesHold, Bool.and_eq_true, ih, List.all_eq_true]
      simp only [List.forall_mem_cons, Bool.or_eq_true, decide_eq_true_eq, ← imp_iff_not_or,
        ← forall₂_and, ne_eq]

/-- The names of members are those of their properties. -/
theorem names_membersToData (members : List (String × Shape)) :
    Fields.names (Shape.membersToData members) = Fields.names members := by
  induction members with
  | nil => rfl
  | cons member rest ih => rw [Shape.membersToData, Fields.names_cons, ih, ← Fields.names_cons]

/-- A member is judged by the property with its name, and by what is said of additional ones if
there is none. -/
theorem membersHold_iff {keys : List (String × Shape)} (distinct : Fields.Distinct keys)
    (additional : Bool) {entries : Fields Data} :
    ((entries.all fun entry =>
        entry.1 ∈ Fields.names keys || holds isItem (.bool additional) entry.2)
      && propertiesHold isItem (Shape.membersToData keys) entries) = true ↔
      ∀ entry ∈ entries, (keys.lookup entry.1).elim (additional = true) fun shape =>
        holds isItem shape.toData entry.2 = true := by
  rw [Bool.and_eq_true, propertiesHold_iff, List.all_eq_true, ← forall₂_and]
  refine forall₂_congr fun entry _ => ?_
  rw [Bool.or_eq_true, decide_eq_true_eq, holds, ← Fields.lookup_isSome_iff]
  cases found : keys.lookup entry.1 with
  | none =>
      have noProperty : ∀ member ∈ keys, entry.1 = member.1 →
          holds isItem member.2.toData entry.2 = true := by
        intro member inKeys same
        exact absurd same (bne_iff_ne.mp (List.lookup_eq_none_iff.mp found member inKeys))
      rw [and_iff_left noProperty]
      exact or_iff_right Bool.false_ne_true
  | some shape =>
      rw [Fields.forall_named_iff distinct found (P := fun shape =>
        holds isItem shape.toData entry.2 = true)]
      exact and_iff_right (Or.inl rfl)

theorem holds_kinds (allowed : List Kind) :
    holds isItem (Shape.kinds allowed).toData value = allowed.any (·.includes value) := by
  rw [Shape.toData, holds, holdEach, holdEach, Bool.and_true, fitsType_kindsToData]

/-- A string of at least one character is not empty. -/
theorem holds_nonEmptyText :
    holds isItem Shape.nonEmptyText.toData value = Shape.nonEmptyText.accepts value := by
  rw [Shape.toData, holds, holdEach, holdEach, holdEach, Bool.and_true]
  cases value with
  | string text =>
      have oneOrMore : (1 : Int) ≤ text.length ↔ text ≠ "" := by
        rw [ne_eq, ← String.length_eq_zero_iff]
        omega
      exact decide_eq_decide.mpr oneOrMore
  | _ => rfl

/-- A record has a member with the required name, and only members that are named. -/
theorem holds_record_iff {required : String} {members : List (String × Shape)}
    (distinct : Fields.Distinct members)
    (each : ∀ member ∈ members, ∀ value,
      holds isItem member.2.toData value = true ↔ member.2.accepts value = true) :
    holds isItem (Shape.record required members).toData value = true ↔
      (Shape.record required members).accepts value = true := by
  have named : propertyNames [("type", .string "object"), ("required", .array [.string required]),
      ("additionalProperties", .bool false),
      ("properties", .object (Shape.membersToData members))] = Fields.names members :=
    names_membersToData members
  rw [Shape.toData, holds, named]
  simp only [holdEach, Bool.and_true]
  cases value with
  | object entries =>
      rw [Bool.and_eq_true, Bool.and_eq_true, membersHold_iff distinct, Shape.accepts,
        Bool.and_eq_true, Shape.acceptsMembers_iff]
      refine (and_iff_right rfl).trans (and_congr ?_ (forall₂_congr fun entry _ => ?_))
      · exact iff_of_eq (congrArg (· = true) (Bool.and_true _))
      · cases found : members.lookup entry.1 with
        | none => simp
        | some shape =>
            simpa using each _ (Fields.mem_of_lookup_eq_some found) entry.2
  | _ => simp [fitsType, isOfType, Shape.accepts]

/-- As many documents hold as shapes accept. -/
theorem holdCount_alternativesToData {shapes : List Shape}
    (each : ∀ shape ∈ shapes, ∀ value,
      holds isItem shape.toData value = true ↔ shape.accepts value = true) :
    holdCount isItem (Shape.alternativesToData shapes) value = Shape.acceptCount shapes value := by
  induction shapes with
  | nil => rfl
  | cons shape rest ih =>
      obtain ⟨first, later⟩ := List.forall_mem_cons.mp each
      rw [Shape.alternativesToData, holdCount, ih later, Bool.eq_iff_iff.mpr (first value),
        Shape.acceptCount]

/-- The document of a plain shape holds of the values that the shape accepts, whatever a reference
means. -/
theorem holds_toData_iff {shape : Shape} (plain : shape.IsPlain) :
    holds isItem shape.toData value = true ↔ shape.accepts value = true := by
  induction plain generalizing value with
  | anything => rw [Shape.toData, holds, Shape.accepts]
  | kinds allowed => rw [holds_kinds, Shape.accepts]
  | nonEmptyText => rw [holds_nonEmptyText]
  | record required distinct _ ih =>
      exact holds_record_iff distinct fun member inMembers _ => ih member inMembers
  | oneOf _ ih =>
      rw [Shape.toData, holds, holdEach, holdEach, Bool.and_true, Shape.accepts,
        holdCount_alternativesToData fun shape inShapes _ => ih shape inShapes]

/-- The document for the items below holds of null and of objects of items. -/
theorem holds_children_iff :
    holds isItem Shape.children.toData value = true ↔
      value = .null ∨ ∃ entries, value = .object entries ∧
        ∀ entry ∈ entries, isItem entry.2 = true := by
  have noProperties : propertyNames [("type", Shape.kindsToData [.object, .null]),
      ("additionalProperties", .object [("$ref", .string "#/$defs/item")])] = [] := rfl
  rw [Shape.toData, holds, noProperties, holdEach, holdEach, holdEach, fitsType_kindsToData]
  cases value <;> simp [Kind.includes, membersOf, holds, holdEach]

open Grammar (keyFault? itemFault? definition itemKeys)

/-- The shape of a key: that of the items below, or one that says nothing of items. -/
def IsKey (shape : Shape) : Prop :=
  shape = .children ∨ shape.IsPlain

/-- The document of a key holds of the values with which no fault is found, if the reference means
this of the items below. -/
theorem holds_key_iff {strict : Bool} {below : List (String × Shape)} {name : String}
    {shape : Shape} (isKey : IsKey shape)
    (agree : ∀ entries, shape = .children → value = .object entries →
      ∀ entry ∈ entries, isItem entry.2 = true ↔ itemFault? strict below below entry.2 = none) :
    holds isItem shape.toData value = true ↔
      keyFault? strict below name (some shape) value = none := by
  rcases isKey with rfl | plain
  · rw [holds_children_iff, Grammar.keyFault?_children_eq_none_iff]
    refine or_congr_right (exists_congr fun entries => and_congr_right fun isObject => ?_)
    exact forall₂_congr fun entry member => agree entries rfl isObject entry member
  · have notChildren : shape ≠ .children := by
      rintro rfl
      cases plain
    rw [holds_toData_iff plain, Grammar.keyFault?_some_eq_none_iff notChildren]

/-- A definition holds of the values with which no fault is found, if the reference in it means this
of the items below. -/
theorem holdEach_definition_iff {strict : Bool} {keys below : List (String × Shape)}
    (distinct : Fields.Distinct keys) (areKeys : ∀ key ∈ keys, IsKey key.2)
    (agree : ∀ members, value = .object members → ∀ entry ∈ members,
      keys.lookup entry.1 = some .children → ∀ entries, entry.2 = .object entries →
      ∀ child ∈ entries, isItem child.2 = true ↔ itemFault? strict below below child.2 = none) :
    holdEach isItem (Fields.names keys) (definition strict keys) value = true ↔
      itemFault? strict keys below value = none := by
  rw [definition, holdEach, holdEach, holdEach, holdEach, Bool.and_true, fitsType_kindsToData]
  cases value with
  | object members =>
      rw [Bool.and_eq_true, membersHold_iff distinct, Grammar.itemFault?_object_eq_none_iff]
      refine (and_iff_right rfl).trans (forall₂_congr fun entry member => ?_)
      cases found : keys.lookup entry.1 with
      | none =>
          rw [Grammar.keyFault?_none_eq_none_iff]
          exact iff_of_eq (Bool.not_eq_true' strict)
      | some shape =>
          refine holds_key_iff (areKeys _ (Fields.mem_of_lookup_eq_some found)) ?_
          rintro entries rfl isObject
          exact agree members rfl entry member found entries isObject
  | null => simp [Kind.includes, membersOf, propertiesHold_iff, itemFault?]
  | _ => simp [Kind.includes, itemFault?]

/-- References are plain if their members are. -/
theorem isPlain_reference {required : String} {members : List (String × Shape)}
    (distinct : Fields.Distinct ((required, Shape.nonEmptyText) :: members))
    (each : ∀ member ∈ members, member.2.IsPlain) :
    (Grammar.reference required members).IsPlain := by
  apply Shape.IsPlain.oneOf
  simp only [Grammar.alternatives, List.forall_mem_cons]
  exact ⟨.nonEmptyText, .record required distinct (List.forall_mem_cons.mpr ⟨.nonEmptyText, each⟩),
    .kinds _, List.forall_mem_nil _⟩

/-- All keys of items have shapes of keys. -/
theorem isKey_itemKeys : ∀ key ∈ itemKeys, IsKey key.2 := by
  have route : (Grammar.reference "name"
      [("parameters", Grammar.map), ("absolute", .kinds [.boolean, .string])]).IsPlain := by
    apply isPlain_reference (by decide)
    simp only [List.forall_mem_cons]
    exact ⟨.kinds _, .kinds _, List.forall_mem_nil _⟩
  have service : (Grammar.reference "id"
      [("method", Grammar.optionalText), ("parameters", .anything)]).IsPlain := by
    apply isPlain_reference (by decide)
    simp only [List.forall_mem_cons]
    exact ⟨.kinds _, .anything, List.forall_mem_nil _⟩
  have kinds : ∀ allowed, IsKey (.kinds allowed) := fun allowed => .inr (.kinds allowed)
  simp only [itemKeys, List.forall_mem_cons]
  exact ⟨kinds _, kinds _, kinds _, kinds _, kinds _, kinds _, kinds _, kinds _, kinds _, kinds _,
    kinds _, kinds _, .inr route, .inr service, kinds _, .inl rfl, List.forall_mem_nil _⟩

/-- The reference means items without fault where the definition of items is that of the grammar: a
reference is only followed to the values below, so this holds by induction on the items below. -/
theorem isItem_iff_of_isMeaning {strict : Bool} {document : Data}
    (isDefinition : definition? document = some (.object (definition strict itemKeys)))
    (means : IsMeaning document isItem) :
    isItem value = true ↔ itemFault? strict itemKeys itemKeys value = none := by
  obtain ⟨found, isFound, isItem_eq⟩ := means
  obtain rfl := Option.some.inj (isDefinition.symm.trans isFound)
  induction value using Data.itemInduction with
  | step value ih =>
    rw [isItem_eq, holds]
    apply holdEach_definition_iff (by decide) isKey_itemKeys
    rintro members rfl ⟨name, value⟩ member isChildren entries rfl
    obtain rfl := (Grammar.lists_itemKeys.lookup_eq_children_iff name).mp isChildren
    exact ih members entries rfl member

/-- Values without fault are a meaning of the reference. -/
theorem isMeaning_fault {strict : Bool} {document : Data}
    (isDefinition : definition? document = some (.object (definition strict itemKeys))) :
    IsMeaning document fun value => (itemFault? strict itemKeys itemKeys value).isNone := by
  refine ⟨_, isDefinition, fun value => ?_⟩
  rw [Bool.eq_iff_iff, Option.isNone_iff_eq_none, holds]
  refine (holdEach_definition_iff (by decide) isKey_itemKeys ?_).symm
  intro _ _ _ _ _ _ _ _ _
  exact Option.isNone_iff_eq_none

/-- A document describes a grammar if it does so when the reference means items without fault. -/
theorem describes_of_definition {strict : Bool} {document : Data} {grammar : Grammar}
    (isDefinition : definition? document = some (.object (definition strict itemKeys)))
    (agree : ∀ isItem : Data → Bool,
      (∀ value, isItem value = true ↔ itemFault? strict itemKeys itemKeys value = none) →
      ∀ value, holds isItem document value = true ↔ grammar.fault? value = none) :
    Describes document grammar where
  existsUnique_meaning := by
    refine ⟨_, isMeaning_fault isDefinition, fun isItem means => ?_⟩
    funext value
    rw [Bool.eq_iff_iff, isItem_iff_of_isMeaning isDefinition means, Option.isNone_iff_eq_none]
  holds_iff isItem means :=
    agree isItem fun _ => isItem_iff_of_isMeaning isDefinition means

/-- The schema document of items describes their grammar. -/
theorem describes_itemSchema (strict : Bool) :
    Describes (Grammar.itemSchema strict) (Grammar.item strict) := by
  apply describes_of_definition rfl
  intro isItem isItem_iff value
  rw [Grammar.itemSchema, holds, holdEach, holdEach, holdEach, Bool.and_true, isItem_iff]
  rfl

/-- The schema document of breadcrumbs describes theirs. -/
theorem describes_breadcrumbSchema (strict : Bool) :
    Describes (Grammar.breadcrumbSchema strict) (Grammar.breadcrumb strict) := by
  apply describes_of_definition rfl
  intro isItem isItem_iff value
  have areKeys : ∀ key ∈ (Grammar.breadcrumb strict).keys, IsKey key.2 :=
    List.forall_mem_append.mpr
      ⟨isKey_itemKeys, List.forall_mem_cons.mpr ⟨.inr (.kinds _), List.forall_mem_nil _⟩⟩
  have ofKeys : holds isItem (Grammar.breadcrumbSchema strict) value =
      holdEach isItem (Fields.names (Grammar.breadcrumb strict).keys)
        (definition strict (Grammar.breadcrumb strict).keys) value := by
    rw [Grammar.breadcrumbSchema, holds, ← names_membersToData]
    simp only [definition, List.cons_append, List.nil_append, holdEach]
    rfl
  have distinct : Fields.Distinct (Grammar.breadcrumb strict).keys := by
    show Fields.Distinct (itemKeys ++ [("parent", Grammar.optionalText)])
    decide
  rw [ofKeys, holdEach_definition_iff distinct areKeys fun _ _ _ _ _ _ _ _ _ => isItem_iff _]
  rfl

end Schema

end MenuPlan

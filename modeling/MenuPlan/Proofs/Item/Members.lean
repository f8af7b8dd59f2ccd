/-
# What an item is read from

An item is read member by member, each of which sets one part of the item and leaves the others. So
every part of the item that is read comes from a member with its name, and the attributes are the
members with no name of their own, in their order. `TakesIn` states this for one member and for a
whole run; a later member may replace what an earlier one has set.

A breadcrumb is read as the item without its parent, and the grammar of breadcrumbs is that of items
and a text for the parent.
-/

import MenuPlan.Proofs.Item.Reading

namespace MenuPlan

/-- Only objects have members. -/
theorem Data.map?_eq_ok_iff {value : Data} {members : Fields Data} :
    value.map? = .ok members ↔ value = .object members := by
  cases value <;> simp [Data.map?]

/-- A value is read as null stands for none: if anything is read, it is read of the value. -/
theorem readOptional_eq_some {α : Type} {read : Data → Except Mismatch α} {value : Data}
    {record : α} (isRead : readOptional read value = .ok (some record)) :
    read value = .ok record := by
  unfold readOptional at isRead
  split at isRead
  · cases isRead
  · obtain ⟨same, isSame, isSome⟩ := map_eq_ok_iff.mp isRead
    rw [isSame, Option.some.inj isSome]

/-- A part of a record after members have been read: what is read from a member with its name, and
what it was before if no member has the name. -/
def PartSet {α : Type} (name : String) (read : Data → Except Mismatch α)
    (members : List (String × Data)) (before after : α) : Prop :=
  (name ∉ Fields.names members ∧ after = before) ∨
    ∃ value, (name, value) ∈ members ∧ read value = .ok after

namespace PartSet

variable {α : Type} {name : String} {read : Data → Except Mismatch α}
  {members more : List (String × Data)} {first second third : α}

theorem absent (absent : name ∉ Fields.names members) (part : α) :
    PartSet name read members part part :=
  Or.inl ⟨absent, rfl⟩

theorem member {value : Data} (isRead : read value = .ok second) :
    PartSet name read [(name, value)] first second :=
  Or.inr ⟨value, List.mem_cons_self, isRead⟩

/-- A member with another name leaves a part alone. -/
theorem other {key : String} (different : name ≠ key) (value : Data) (part : α) :
    PartSet name read [(key, value)] part part :=
  .absent (by simpa using different) part

/-- The last member that sets the part decides, and otherwise it is left alone. -/
theorem trans (early : PartSet name read members first second)
    (late : PartSet name read more second third) :
    PartSet name read (members ++ more) first third := by
  rcases late with ⟨absentLater, rfl⟩ | ⟨value, inMore, isRead⟩
  · rcases early with ⟨absent, rfl⟩ | ⟨value, inMembers, isRead⟩
    · refine Or.inl ⟨?_, rfl⟩
      rw [Fields.names_append, List.mem_append, not_or]
      exact ⟨absent, absentLater⟩
    · exact Or.inr ⟨value, List.mem_append_left _ inMembers, isRead⟩
  · exact Or.inr ⟨value, List.mem_append_right _ inMore, isRead⟩

/-- Under distinct names the part is read from the member with its name. -/
theorem of_get?_eq_some (set : PartSet name read members first second)
    (distinct : Fields.Distinct members) {value : Data}
    (found : Fields.get? members name = some value) : read value = .ok second := by
  rcases set with ⟨absent, -⟩ | ⟨other, member, isRead⟩
  · rw [(Fields.get?_eq_none_iff members name).mpr absent] at found
    cases found
  · rw [Fields.get?_eq_some_of_mem distinct member] at found
    rwa [← Option.some.inj found]

/-- A part whose name no member has is left alone. -/
theorem of_get?_eq_none (set : PartSet name read members first second)
    (missing : Fields.get? members name = none) : second = first := by
  rcases set with ⟨-, same⟩ | ⟨value, member, -⟩
  · exact same
  · exact absurd (List.mem_map_of_mem member) ((Fields.get?_eq_none_iff members name).mp missing)

end PartSet

/-- The name of a route is a text that is not empty. -/
theorem Route.isMember_name_iff {value : Data} :
    IsMember "name" value ↔ ∃ text, value = .string text ∧ text ≠ "" := by
  constructor
  · intro isMember
    generalize isName : "name" = name at isMember
    cases isMember with
    | name nonEmpty => exact ⟨_, rfl, nonEmpty⟩
    | parameters | absoluteFlag | absoluteText => exact absurd isName (by decide)
  · rintro ⟨text, rfl, nonEmpty⟩
    exact IsMember.name nonEmpty

/-- So is the id of a service. -/
theorem Service.isMember_id_iff {value : Data} :
    IsMember "id" value ↔ ∃ text, value = .string text ∧ text ≠ "" := by
  constructor
  · intro isMember
    generalize isId : "id" = name at isMember
    cases isMember with
    | id nonEmpty => exact ⟨_, rfl, nonEmpty⟩
    | method | noMethod | parameters => exact absurd isId (by decide)
  · rintro ⟨text, rfl, nonEmpty⟩
    exact IsMember.id nonEmpty

namespace Item

/-- The items below are read one by one. -/
theorem readChildren_eq_ok_iff {entries : List (String × Data)} {children : List (String × Item)} :
    readChildren entries = .ok children ↔
      List.Forall₂ (fun raw child => child.1 = raw.1 ∧ read raw.2 = .ok child.2)
        entries children := by
  induction entries generalizing children with
  | nil =>
      rw [readChildren, List.forall₂_nil_left_iff]
      constructor
      · intro isNil
        exact (Except.ok.inj isNil).symm
      · rintro rfl
        rfl
  | cons raw rest ih =>
      rw [readChildren, List.forall₂_cons_left_iff]
      simp only [bind_eq_ok_iff, ih]
      constructor
      · rintro ⟨child, isChild, later, isLater, isAll⟩
        cases isAll
        exact ⟨(raw.1, child), later, ⟨rfl, isChild⟩, isLater, rfl⟩
      · rintro ⟨⟨name, child⟩, later, ⟨rfl, isChild⟩, isLater, rfl⟩
        exact ⟨child, isChild, later, isLater, rfl⟩

/-- The items below are read from an object. -/
def readBelow (value : Data) : Except Mismatch (List (String × Item)) := do
  readChildren (← value.map?)

/-- The items below are read from an object, one by one. -/
theorem readBelow_eq_ok_iff {value : Data} {children : List (String × Item)} :
    readBelow value = .ok children ↔ ∃ entries, value = .object entries ∧
      List.Forall₂ (fun raw child => child.1 = raw.1 ∧ read raw.2 = .ok child.2)
        entries children := by
  rw [readBelow, bind_eq_ok_iff]
  apply exists_congr
  intro entries
  rw [readChildren_eq_ok_iff, Data.map?_eq_ok_iff]

/-- How reading members changes an item: each member sets the part with its name, and those that
have no name of their own are added to the attributes. -/
structure TakesIn (start : Item) (members : List (String × Data)) (done : Item) : Prop where
  options : PartSet "options" Data.map? members start.options done.options
  route : PartSet "route" (readOptional Route.read) members start.route done.route
  service : PartSet "service" (readOptional Service.read) members start.service done.service
  expression : PartSet "expression" Data.optionalText? members start.expression done.expression
  children : PartSet "children" readBelow members start.children done.children
  attributes : done.attributes =
    start.attributes ++ members.filter fun member => member.1 ∉ ownKeys

/-- Reading members and then more of them. -/
theorem TakesIn.trans {start between done : Item} {members more : List (String × Data)}
    (early : TakesIn start members between) (late : TakesIn between more done) :
    TakesIn start (members ++ more) done where
  options := early.options.trans late.options
  route := early.route.trans late.route
  service := early.service.trans late.service
  expression := early.expression.trans late.expression
  children := early.children.trans late.children
  attributes := by
    rw [late.attributes, early.attributes, List.filter_append, List.append_assoc]

/-- One member is taken in and reading goes on. The cases are the keys of an item that are not
attributes, and all others. -/
theorem takesIn_member {start done : Item} {name : String} {value : Data}
    {rest : List (String × Data)} (isRead : readMembers start ((name, value) :: rest) = .ok done) :
    ∃ next, TakesIn start [(name, value)] next ∧ readMembers next rest = .ok done := by
  by_cases isOwn : name ∈ ownKeys
  · have kept : start.attributes =
        start.attributes ++ [(name, value)].filter (fun member => member.1 ∉ ownKeys) := by
      simp [isOwn]
    simp only [ownKeys, List.mem_cons, List.not_mem_nil, or_false] at isOwn
    rcases isOwn with rfl | rfl | rfl | rfl | rfl
    · rw [readMembers] at isRead
      obtain ⟨options, isMap, isRest⟩ := bind_eq_ok_iff.mp isRead
      exact ⟨{ start with options }, ⟨.member isMap, .other (by decide) .., .other (by decide) ..,
        .other (by decide) .., .other (by decide) .., kept⟩, isRest⟩
    · rw [readMembers] at isRead
      obtain ⟨route, isRoute, isRest⟩ := bind_eq_ok_iff.mp isRead
      exact ⟨{ start with route }, ⟨.other (by decide) .., .member isRoute, .other (by decide) ..,
        .other (by decide) .., .other (by decide) .., kept⟩, isRest⟩
    · rw [readMembers] at isRead
      obtain ⟨service, isService, isRest⟩ := bind_eq_ok_iff.mp isRead
      exact ⟨{ start with service }, ⟨.other (by decide) .., .other (by decide) ..,
        .member isService, .other (by decide) .., .other (by decide) .., kept⟩, isRest⟩
    · rw [readMembers] at isRead
      obtain ⟨expression, isText, isRest⟩ := bind_eq_ok_iff.mp isRead
      exact ⟨{ start with expression }, ⟨.other (by decide) .., .other (by decide) ..,
        .other (by decide) .., .member isText, .other (by decide) .., kept⟩, isRest⟩
    · have isBelow : ∃ children, readBelow value = .ok children ∧
          readMembers { start with children } rest = .ok done := by
        cases value with
        | object entries =>
            rw [readMembers] at isRead
            exact bind_eq_ok_iff.mp isRead
        | null | bool _ | number _ | string _ | array _ =>
            rw [readMembers] at isRead
            · cases isRead
            · rintro _ ⟨⟩
      obtain ⟨children, isBelow, isRest⟩ := isBelow
      exact ⟨{ start with children }, ⟨.other (by decide) .., .other (by decide) ..,
        .other (by decide) .., .other (by decide) .., .member isBelow, kept⟩, isRest⟩
  · rw [readMembers_attribute start isOwn] at isRead
    have added : [(name, value)].filter (fun member => member.1 ∉ ownKeys) = [(name, value)] := by
      simp [isOwn]
    simp only [ownKeys, List.mem_cons, List.not_mem_nil, or_false, not_or] at isOwn
    obtain ⟨notOptions, notRoute, notService, notExpression, notChildren⟩ := isOwn
    refine ⟨{ start with attributes := start.attributes ++ [(name, value)] },
      ⟨.other (Ne.symm notOptions) .., .other (Ne.symm notRoute) .., .other (Ne.symm notService) ..,
        .other (Ne.symm notExpression) .., .other (Ne.symm notChildren) .., ?_⟩, isRead⟩
    rw [added]

/-- All members are taken in. -/
theorem takesIn_of_readMembers {start done : Item} {members : List (String × Data)}
    (isRead : readMembers start members = .ok done) : TakesIn start members done := by
  induction members generalizing start with
  | nil =>
      cases isRead
      have absent {key : String} : key ∉ Fields.names ([] : Fields Data) := List.not_mem_nil
      exact ⟨.absent absent _, .absent absent _, .absent absent _, .absent absent _,
        .absent absent _, (List.append_nil _).symm⟩
  | cons member rest ih =>
      obtain ⟨next, isStep, isRest⟩ := takesIn_member isRead
      exact isStep.trans (ih isRest)

/-- A property of an item and of all items below it. -/
inductive Everywhere (P : Item → Prop) : Item → Prop where
  | intro {item : Item} (own : P item) (below : ∀ entry ∈ item.children, Everywhere P entry.2) :
      Everywhere P item

/-- A property that an item has by its members holds everywhere if the data below an item is of the
same sort as the data of the item. -/
theorem everywhere_of_read {P : Item → Prop} {Q : Data → Prop}
    (own : ∀ members item, Q (.object members) → TakesIn {} members item → P item)
    (below : ∀ members entries, Q (.object members) → ("children", .object entries) ∈ members →
      ∀ entry ∈ entries, Q entry.2)
    {value : Data} {item : Item} (holds : Q value) (isRead : read value = .ok item) :
    item.Everywhere P := by
  induction value using Data.itemInduction generalizing item with
  | step value ih =>
    cases value with
    | object members =>
        rw [read] at isRead
        have taken := takesIn_of_readMembers isRead
        refine ⟨own members item holds taken, ?_⟩
        intro child isChild
        rcases taken.children with ⟨-, none⟩ | ⟨value, member, isBelow⟩
        · rw [none] at isChild
          cases isChild
        · obtain ⟨entries, rfl, eachRead⟩ := readBelow_eq_ok_iff.mp isBelow
          obtain ⟨entry, inEntries, -, isRead⟩ := exists_mem_of_forall₂_right eachRead isChild
          have holdsBelow := below members entries holds member entry inEntries
          exact ih members entries rfl member entry inEntries holdsBelow isRead
    | _ => cases isRead

/-- A member of the long form is the long form of a member. -/
theorem mem_expandMembers_iff {members : List (String × Data)} {name : String} {value : Data} :
    (name, value) ∈ expandMembers members ↔
      ∃ raw, (name, raw) ∈ members ∧ expandValue name raw = value := by
  rw [expandMembers_eq_map, List.mem_map]
  constructor
  · rintro ⟨⟨key, raw⟩, member, same⟩
    cases same
    exact ⟨raw, member, rfl⟩
  · rintro ⟨raw, member, rfl⟩
    exact ⟨(name, raw), member, rfl⟩

/-- An object is an item exactly if none of its members has a fault. -/
theorem isItem_object_iff {strict : Bool} {members : Fields Data} :
    IsItem strict (.object members) ↔ ∀ entry ∈ members, HasNoFault strict entry.1 entry.2 := by
  rw [← itemFault?_eq_none_iff, Grammar.itemFault?_object_eq_none_iff]
  rfl

/-- What is read from a long form is what is read of the record. -/
theorem ofExpanded_eq_ok_iff {location : String} {expanded : Data} {item : Item} :
    ofExpanded location expanded = .ok item ↔ read expanded = .ok item := by
  rw [ofExpanded]
  cases read expanded with
  | ok other => rw [Except.ok.injEq, Except.ok.injEq]
  | error mismatch =>
      constructor
      · intro isRead
        cases isRead
      · intro isRead
        cases isRead

/-- Data describes the item that its long form is read as, if it is in the grammar. -/
theorem normalize_eq_ok_iff {strict : Bool} {location : String} {raw : Data} {item : Item} :
    normalize strict location raw = .ok item ↔
      IsItem strict raw ∧ read (expand raw) = .ok item := by
  rw [normalize, bind_eq_ok_iff, ofExpanded_eq_ok_iff]
  constructor
  · rintro ⟨_, passed, isRead⟩
    exact ⟨check_eq_ok_iff.mp passed, isRead⟩
  · rintro ⟨isItem, isRead⟩
    exact ⟨(), check_eq_ok_iff.mpr isItem, isRead⟩

end Item

/-! ## Breadcrumbs -/

namespace Breadcrumb

open Item (IsItem)

variable {strict : Bool}

/-- The data names a parent by a text or not at all. -/
def HasParentText (raw : Data) : Prop :=
  ∀ members, raw = .object members → ∀ value, ("parent", value) ∈ members →
    value = .null ∨ ∃ text, value = .string text

/-- The value of a key of a breadcrumb is judged as that of an item's key, except for the parent. -/
theorem lookup_of_ne_parent {name : String} (notParent : name ≠ "parent") :
    (Grammar.itemKeys ++ [("parent", Grammar.optionalText)]).lookup name =
      Grammar.itemKeys.lookup name := by
  have differs : (name == "parent") = false := by simpa using notParent
  rw [List.lookup_append, List.lookup_cons, differs, List.lookup_nil, Option.or_none]

theorem keyFault?_parent_eq_none_iff {value : Data} :
    Grammar.keyFault? strict Grammar.itemKeys "parent"
        ((Grammar.itemKeys ++ [("parent", Grammar.optionalText)]).lookup "parent") value = none ↔
      value = .null ∨ ∃ text, value = .string text := by
  have isShape : (Grammar.itemKeys ++ [("parent", Grammar.optionalText)]).lookup "parent" =
      some Grammar.optionalText := rfl
  have notChildren : Grammar.optionalText ≠ .children := by
    rintro ⟨⟩
  rw [isShape, Grammar.keyFault?_some_eq_none_iff notChildren]
  cases value <;> simp [Grammar.optionalText, Shape.accepts, Kind.includes]

/-- The grammar of breadcrumbs is that of items, with a text for the parent. -/
theorem check_eq_ok_iff {location : String} {raw : Data} :
    Item.check (.breadcrumb strict) location raw = .ok () ↔
      IsItem strict (withoutParent raw) ∧ HasParentText raw := by
  rw [Item.check_eq_ok_iff_fault?]
  show Grammar.itemFault? strict (Grammar.itemKeys ++ [("parent", Grammar.optionalText)])
    Grammar.itemKeys raw = none ↔ _
  cases raw with
  | object members =>
      rw [Grammar.itemFault?_object_eq_none_iff, withoutParent, Item.isItem_object_iff]
      constructor
      · intro noFault
        constructor
        · intro entry remains
          obtain ⟨member, notParent⟩ : entry ∈ members ∧ entry.1 ≠ "parent" := by
            simpa [Fields.erase] using remains
          rw [Item.HasNoFault, ← lookup_of_ne_parent notParent]
          exact noFault entry member
        · rintro _ ⟨⟩ value member
          exact keyFault?_parent_eq_none_iff.mp (noFault _ member)
      · rintro ⟨isItem, hasParent⟩ ⟨name, value⟩ member
        by_cases isParent : name = "parent"
        · subst isParent
          exact keyFault?_parent_eq_none_iff.mpr (hasParent members rfl value member)
        · rw [lookup_of_ne_parent isParent]
          apply isItem (name, value)
          simpa [Fields.erase, isParent] using member
  | null =>
      rw [Grammar.itemFault?]
      apply iff_of_true rfl
      refine ⟨Item.IsItem.null, ?_⟩
      rintro _ ⟨⟩
  | bool _ | number _ | string _ | array _ =>
      constructor
      · intro noFault
        simp [Grammar.itemFault?] at noFault
      · rintro ⟨⟨⟩, -⟩

/-- The parent is of no account for the long form of the rest. -/
theorem withoutParent_expand (raw : Data) :
    withoutParent (Item.expand raw) = Item.expand (withoutParent raw) := by
  cases raw with
  | object members =>
      rw [Item.expand, withoutParent, withoutParent, Item.expand, Item.expandMembers_eq_map,
        Item.expandMembers_eq_map, Fields.erase, Fields.erase, List.filter_map]
      rfl
  | null | bool _ | number _ | string _ | array _ => rfl

/-- Data describes a breadcrumb if its rest describes the item and it names a parent by a text. -/
theorem normalize_eq_ok_iff {location : String} {raw : Data} {breadcrumb : Breadcrumb} :
    normalize strict location raw = .ok breadcrumb ↔
      HasParentText raw ∧ Item.normalize strict location (withoutParent raw) = .ok breadcrumb.item ∧
        parent? (Item.expand raw) = breadcrumb.parent := by
  rw [normalize, bind_eq_ok_iff, Item.normalize_eq_ok_iff, ← withoutParent_expand]
  constructor
  · rintro ⟨_, passed, later⟩
    obtain ⟨isItem, hasParent⟩ := check_eq_ok_iff.mp passed
    obtain ⟨item, isRead, isResult⟩ := bind_eq_ok_iff.mp later
    cases isResult
    exact ⟨hasParent, ⟨isItem, Item.ofExpanded_eq_ok_iff.mp isRead⟩, rfl⟩
  · rintro ⟨hasParent, ⟨isItem, isRead⟩, isParent⟩
    have isRest : Item.ofExpanded location (withoutParent (Item.expand raw)) =
        .ok breadcrumb.item := Item.ofExpanded_eq_ok_iff.mpr isRead
    refine ⟨(), check_eq_ok_iff.mpr ⟨isItem, hasParent⟩, bind_eq_ok_iff.mpr ⟨_, isRest, ?_⟩⟩
    rw [isParent]
    rfl

end Breadcrumb

end MenuPlan

/-
# The parent of a breadcrumb

A breadcrumb is an item with one more key. `Breadcrumb.PartsInto` takes the parent out of the data
of a breadcrumb and leaves the data of an item, and the main result is that data describes a
breadcrumb exactly if it parts in this way into a parent and the data that describes the item.

Only the breadcrumb itself has a parent. Below it the key is one like any other that no item knows:
a strict grammar refuses it, and in a lenient one it is an attribute of the item below on which it
is set, and nothing else changes by it. `DifferAt` compares data, or items, that differ in one item
below at most.
-/

import MenuPlan.Proofs.Item.Conservation
import MenuPlan.Proofs.Item.Strictness

namespace MenuPlan

namespace Fields

variable {α : Type} {name other : String} {value : α} {before after : Fields α}

/-- What is found in two lists one after the other is found in the first of them that has it. -/
theorem get?_append (fields more : Fields α) (name : String) :
    get? (fields ++ more) name = (get? fields name).or (get? more name) := by
  induction fields with
  | nil => rfl
  | cons entry rest ih =>
      obtain ⟨key, first⟩ := entry
      rw [List.cons_append, get?, get?, ih]
      by_cases same : key = name
      · rw [if_pos same, if_pos same, Option.some_or]
      · rw [if_neg same, if_neg same]

/-- An entry is of no account for what is found under the other names. -/
theorem get?_middle_of_ne (different : name ≠ other) :
    get? (before ++ (name, value) :: after) other = get? (before ++ after) other := by
  rw [get?_append, get?_append, get?, if_neg different]

/-- Under distinct names an entry is found where it stands. -/
theorem get?_middle (distinct : Distinct (before ++ (name, value) :: after)) :
    get? (before ++ (name, value) :: after) name = some value :=
  get?_eq_some_of_mem distinct (List.mem_append_right _ List.mem_cons_self)

/-- Under distinct names, erasing the name of an entry takes out the entry. -/
theorem erase_middle (distinct : Distinct (before ++ (name, value) :: after)) :
    erase (before ++ (name, value) :: after) name = before ++ after := by
  rw [Distinct, names_append, names_cons, List.nodup_middle, List.nodup_cons, List.mem_append,
    not_or] at distinct
  obtain ⟨⟨notBefore, notAfter⟩, -⟩ := distinct
  have isErased : erase (before ++ (name, value) :: after) name =
      erase before name ++ erase after name := by
    simp [erase]
  rw [isErased, erase_of_notMem notBefore, erase_of_notMem notAfter]

end Fields

/-- Names stay distinct when a member is taken out. -/
theorem Data.Distinct.erase {members : Fields Data} (distinct : (Data.object members).Distinct)
    (name : String) : (Data.object (Fields.erase members name)).Distinct := by
  obtain ⟨own, each⟩ := Data.distinct_object_iff.mp distinct
  refine Data.distinct_object_iff.mpr ⟨own.erase name, ?_⟩
  intro entry remains
  exact each entry (List.mem_of_mem_filter remains)

namespace Breadcrumb

/-- The data of a breadcrumb parts into the name of its parent and the data of its item. A parent is
a text; null stands for none. -/
inductive PartsInto : Data → Option String → Data → Prop where
  | absent {members : Fields Data} (absent : "parent" ∉ Fields.names members) :
      PartsInto (.object members) none (.object members)
  | null {before after : Fields Data} :
      PartsInto (.object (before ++ ("parent", .null) :: after)) none (.object (before ++ after))
  | text {before after : Fields Data} (parent : String) :
      PartsInto (.object (before ++ ("parent", .string parent) :: after)) (some parent)
        (.object (before ++ after))
  | other {raw : Data} (noObject : ∀ members, raw ≠ .object members) : PartsInto raw none raw

/-- The parent is the same in the long form. -/
theorem parent?_expand (raw : Data) : parent? (Item.expand raw) = parent? raw := by
  cases raw with
  | object members =>
      have isExpanded : Fields.get? (Item.expandMembers members) "parent" =
          Fields.get? members "parent" := by
        rw [Item.expandMembers_eq_map, Fields.get?_map Item.expandValue]
        have isAttribute : "parent" ∉ Item.ownKeys := by decide
        cases Fields.get? members "parent" with
        | none => rfl
        | some value => rw [Option.map_some, Item.expandValue_of_notMem_ownKeys isAttribute]
      rw [parent?, parent?, Item.expand, Data.member?, Data.member?, isExpanded]
  | null | bool _ | number _ | string _ | array _ => rfl

variable {before after : Fields Data} {value : Data}

/-- A parent that is written once is a text or null, or else no parent. -/
theorem hasParentText_middle_iff
    (distinct : Fields.Distinct (before ++ ("parent", value) :: after)) :
    HasParentText (.object (before ++ ("parent", value) :: after)) ↔
      value = .null ∨ ∃ text, value = .string text := by
  constructor
  · intro hasText
    exact hasText _ rfl value (List.mem_append_right _ List.mem_cons_self)
  · rintro isText _ ⟨⟩ other member
    have found := Fields.get?_eq_some_of_mem distinct member
    rw [Fields.get?_middle distinct] at found
    rwa [← Option.some.inj found]

/-- What remains without the parent are the other members. -/
theorem withoutParent_middle (distinct : Fields.Distinct (before ++ ("parent", value) :: after)) :
    withoutParent (.object (before ++ ("parent", value) :: after)) = .object (before ++ after) := by
  rw [withoutParent, Fields.erase_middle distinct]

/-- Data parts into what is read as its parent and what remains without it, if the parent is a
text. -/
theorem partsInto_iff {raw rest : Data} {parent : Option String} (distinct : raw.Distinct) :
    PartsInto raw parent rest ↔
      HasParentText raw ∧ withoutParent raw = rest ∧ parent? raw = parent := by
  constructor
  · intro parts
    cases parts with
    | @absent members absent =>
        have missing := (Fields.get?_eq_none_iff members "parent").mpr absent
        refine ⟨?_, ?_, ?_⟩
        · rintro _ ⟨⟩ value member
          exact absurd (List.mem_map_of_mem member) absent
        · rw [withoutParent, Fields.erase_of_notMem absent]
        · rw [parent?, Data.member?, missing]
    | null =>
        have own := (Data.distinct_object_iff.mp distinct).1
        refine ⟨(hasParentText_middle_iff own).mpr (Or.inl rfl), withoutParent_middle own, ?_⟩
        rw [parent?, Data.member?, Fields.get?_middle own]
    | text parent =>
        have own := (Data.distinct_object_iff.mp distinct).1
        refine ⟨(hasParentText_middle_iff own).mpr (Or.inr ⟨parent, rfl⟩),
          withoutParent_middle own, ?_⟩
        rw [parent?, Data.member?, Fields.get?_middle own]
    | other noObject =>
        cases raw with
        | object members => exact absurd rfl (noObject members)
        | null | bool _ | number _ | string _ | array _ =>
            refine ⟨?_, rfl, rfl⟩
            rintro _ ⟨⟩
  · rintro ⟨hasText, rfl, rfl⟩
    cases raw with
    | object members =>
        have own := (Data.distinct_object_iff.mp distinct).1
        cases found : Fields.get? members "parent" with
        | none =>
            have absent := (Fields.get?_eq_none_iff members "parent").mp found
            rw [withoutParent, Fields.erase_of_notMem absent, parent?, Data.member?, found]
            exact .absent absent
        | some value =>
            obtain ⟨before, after, rfl⟩ := List.append_of_mem (Fields.mem_of_get?_eq_some found)
            rw [withoutParent_middle own, parent?, Data.member?, found]
            rcases (hasParentText_middle_iff own).mp hasText with rfl | ⟨parent, rfl⟩
            · exact .null
            · exact .text parent
    | null | bool _ | number _ | string _ | array _ =>
        apply PartsInto.other
        rintro _ ⟨⟩

/-- Data describes a breadcrumb exactly if it parts into the parent of the breadcrumb and data that
describes its item. -/
theorem normalize_eq_ok_iff_partsInto {strict : Bool} {location : String} {raw : Data}
    {breadcrumb : Breadcrumb} (distinct : raw.Distinct) :
    normalize strict location raw = .ok breadcrumb ↔
      ∃ rest, PartsInto raw breadcrumb.parent rest ∧
        Item.normalize strict location rest = .ok breadcrumb.item := by
  rw [normalize_eq_ok_iff, parent?_expand]
  simp only [partsInto_iff distinct]
  constructor
  · rintro ⟨hasText, isItem, isParent⟩
    exact ⟨_, ⟨hasText, rfl, isParent⟩, isItem⟩
  · rintro ⟨_, ⟨hasText, rfl, isParent⟩, isItem⟩
    exact ⟨hasText, isItem, isParent⟩

end Breadcrumb

/-! ## A difference in one item below -/

/-- Two values are the same but for one of the items below: at the end of the path, which follows
the names of items, one has `first` and the other has `second`. -/
inductive Data.DifferAt (first second : Data) : List String → Data → Data → Prop where
  | here : DifferAt first second [] first second
  | inside {name : String} {path : List String} {raw other : Data} (before after : Fields Data)
      (earlier later : List (String × Data)) (differ : DifferAt first second path raw other) :
      DifferAt first second (name :: path)
        (.object (before ++ ("children", .object (earlier ++ (name, raw) :: later)) :: after))
        (.object (before ++ ("children", .object (earlier ++ (name, other) :: later)) :: after))

/-- Two items are the same but for one of the items below: at the end of the path, one has `first`
and the other has `second`. -/
inductive Item.DifferAt (first second : Item) : List String → Item → Item → Prop where
  | here : DifferAt first second [] first second
  | inside {name : String} {path : List String} {item other : Item} (around : Item)
      (earlier later : List (String × Item)) (differ : DifferAt first second path item other) :
      DifferAt first second (name :: path)
        { around with children := earlier ++ (name, item) :: later }
        { around with children := earlier ++ (name, other) :: later }

namespace Item

variable {strict : Bool}

/-- The items below are in the grammar one by one. -/
theorem hasNoFault_items_iff {entries : List (String × Data)} :
    HasNoFault strict "children" (.object entries) ↔ ∀ entry ∈ entries, IsItem strict entry.2 := by
  simp only [hasNoFault_children_iff, itemFault?_eq_none_iff, Data.object.injEq, reduceCtorEq,
    false_or, exists_eq_left']

/-- A lenient grammar has nothing to say about a key that no item knows. -/
theorem isItem_unknown_iff {name : String} (unknown : name ∉ knownKeys) (value : Data)
    (before after : Fields Data) :
    IsItem false (.object (before ++ (name, value) :: after)) ↔
      IsItem false (.object (before ++ after)) := by
  simp only [isItem_object_iff, List.forall_mem_append, List.forall_mem_cons,
    hasNoFault_unknown_iff unknown, true_and]

/-- Members that are no parts of an item, in their order. -/
def attributesOf (members : Fields Data) : Fields Data :=
  members.filter fun member => member.1 ∉ ownKeys

/-- An item that gets one more attribute conserves one more member. -/
theorem Conserves.add_attribute {name : String} {value : Data} {before after : Fields Data}
    {item : Item} (conserves : Conserves (.object (before ++ after)) item)
    (isAttribute : name ∉ ownKeys) :
    item.attributes = attributesOf before ++ attributesOf after ∧
      Conserves (.object (before ++ (name, value) :: after))
        { item with attributes := attributesOf before ++ (name, value) :: attributesOf after } := by
  have others {key : String} (isOwn : key ∈ ownKeys) :
      Fields.get? (before ++ (name, value) :: after) key = Fields.get? (before ++ after) key :=
    Fields.get?_middle_of_ne fun same => isAttribute (same ▸ isOwn)
  cases conserves with
  | object options route service expression children attributes =>
      refine ⟨attributes.trans (List.filter_append ..), ?_⟩
      constructor
      · rwa [others (by decide)]
      · rwa [others (by decide)]
      · rwa [others (by decide)]
      · rwa [others (by decide)]
      · rwa [others (by decide)]
      · simp only [attributesOf, List.filter_append]
        rw [List.filter_cons_of_pos (by simpa [ownKeys] using isAttribute)]
        rfl

/-- Where one of the entries is conserved among the others. -/
theorem conservesEach_middle_iff {earlier later : List (String × Data)} {name : String} {raw : Data}
    {children : List (String × Item)} :
    ConservesEach (earlier ++ (name, raw) :: later) children ↔
      ∃ before child after, children = before ++ (name, child) :: after ∧
        ConservesEach earlier before ∧ Conserves raw child ∧ ConservesEach later after := by
  induction earlier generalizing children with
  | nil =>
      constructor
      · rintro (_ | ⟨first, rest⟩)
        exact ⟨[], _, _, rfl, .nil, first, rest⟩
      · rintro ⟨_, child, after, rfl, ⟨⟩, first, rest⟩
        exact .cons first rest
  | cons entry earlier ih =>
      constructor
      · rintro (_ | ⟨first, rest⟩)
        obtain ⟨before, child, after, rfl, isBefore, isChild, isAfter⟩ := ih.mp rest
        exact ⟨_ :: before, child, after, rfl, .cons first isBefore, isChild, isAfter⟩
      · rintro ⟨_, child, after, rfl, _ | ⟨first, isBefore⟩, isChild, isAfter⟩
        exact .cons first (ih.mpr ⟨_, child, after, rfl, isBefore, isChild, isAfter⟩)

/-- The items below conserve the member for them. -/
theorem Conserves.conservesBelow {before after : Fields Data} {below : Data} {item : Item}
    (conserves : Conserves (.object (before ++ ("children", below) :: after)) item)
    (distinct : Fields.Distinct (before ++ ("children", below) :: after)) :
    ConservesBelow below item.children := by
  have children := conserves.conservesBelow_children
  rwa [Fields.get?_middle distinct, Option.getD_some] at children

/-- Other items below conserve another member for them, and the rest of the item stays. -/
theorem Conserves.change_children {before after : Fields Data} {below other : Data} {item : Item}
    {children : List (String × Item)}
    (conserves : Conserves (.object (before ++ ("children", other) :: after)) item)
    (distinct : Fields.Distinct (before ++ ("children", below) :: after))
    (isBelow : ConservesBelow below children) :
    Conserves (.object (before ++ ("children", below) :: after)) { item with children } := by
  have others {key : String} (different : "children" ≠ key) :
      Fields.get? (before ++ ("children", below) :: after) key =
        Fields.get? (before ++ ("children", other) :: after) key := by
    rw [Fields.get?_middle_of_ne different, Fields.get?_middle_of_ne different]
  cases conserves with
  | object options route service expression _ attributes =>
      constructor
      · rwa [others (by decide)]
      · rwa [others (by decide)]
      · rwa [others (by decide)]
      · rwa [others (by decide)]
      · rwa [Fields.get?_middle distinct, Option.getD_some]
      · rw [List.filter_append, List.filter_cons_of_neg (by simp)] at attributes ⊢
        exact attributes

end Item

namespace Data.DifferAt

open Item (IsItem HasNoFault HasKnownKeys Conserves ConservesBelow ConservesEach)

variable {first second raw other : Data} {path : List String} {strict : Bool}

/-- Names are as distinct as they are in the item below. -/
theorem distinct (differ : DifferAt first second path raw other)
    (inner : first.Distinct → second.Distinct) (distinct : raw.Distinct) : other.Distinct := by
  induction differ with
  | here => exact inner distinct
  | @inside name path raw other before after earlier later differ ih =>
      simp only [Data.distinct_object_iff, Fields.Distinct, Fields.names_append, Fields.names_cons,
        List.forall_mem_append, List.forall_mem_cons] at distinct ⊢
      obtain ⟨own, eachBefore, ⟨⟨names, eachEarlier, each, eachLater⟩, eachAfter⟩⟩ := distinct
      exact ⟨own, eachBefore, ⟨⟨names, eachEarlier, ih each, eachLater⟩, eachAfter⟩⟩

/-- Both are in the grammar if one is, provided that this is so for the item below. -/
theorem isItem_iff (differ : DifferAt first second path raw other)
    (inner : IsItem strict first ↔ IsItem strict second) :
    IsItem strict raw ↔ IsItem strict other := by
  induction differ with
  | here => exact inner
  | inside before after earlier later differ ih =>
      simp only [Item.isItem_object_iff, List.forall_mem_append, List.forall_mem_cons,
        Item.hasNoFault_items_iff, ih]

/-- The keys of the items below are known. -/
theorem hasKnownKeys (differ : DifferAt first second path raw other)
    (known : HasKnownKeys Item.knownKeys raw) : HasKnownKeys Item.knownKeys first := by
  induction differ with
  | here => exact known
  | inside before after earlier later differ ih =>
      obtain ⟨-, isBelow⟩ := known
      apply ih
      exact isBelow _ _ rfl (List.mem_append_right _ List.mem_cons_self) _
        (List.mem_append_right _ List.mem_cons_self)

/-- If one value is conserved, then so is the item below in it; and for every item that conserves
the other one below, the other value is conserved by an item that differs in this item only. -/
theorem exists_conserves (differ : DifferAt first second path raw other) (distinct : raw.Distinct)
    {item : Item} (conserves : Conserves other item) :
    ∃ child, Conserves second child ∧ ∀ changed, Conserves first changed →
      ∃ whole, Conserves raw whole ∧ Item.DifferAt changed child path whole item := by
  induction differ generalizing item with
  | here => exact ⟨item, conserves, fun changed isChanged => ⟨changed, isChanged, .here⟩⟩
  | @inside name path raw other before after earlier later differ ih =>
      obtain ⟨distinctMembers, distinctBelow⟩ := Data.distinct_object_iff.mp distinct
      have distinctEntries := Data.distinct_object_iff.mp
        (distinctBelow _ (List.mem_append_right _ List.mem_cons_self))
      have distinctRaw := distinctEntries.2 _ (List.mem_append_right _ List.mem_cons_self)
      have distinctOther : Fields.Distinct
          (before ++ ("children", .object (earlier ++ (name, other) :: later)) :: after) := by
        simpa [Fields.Distinct] using distinctMembers
      obtain ⟨_, _, _, _, children, _⟩ := item
      have isBelow := conserves.conservesBelow distinctOther
      dsimp only at isBelow
      cases isBelow with
      | items each =>
          obtain ⟨first, below, last, rfl, isEarlier, isChild, isLater⟩ :=
            Item.conservesEach_middle_iff.mp each
          obtain ⟨child, conservesChild, change⟩ := ih distinctRaw isChild
          refine ⟨child, conservesChild, ?_⟩
          intro changed isChanged
          obtain ⟨whole, isWhole, differ⟩ := change changed isChanged
          have eachChanged : ConservesBelow _ (first ++ (name, whole) :: last) :=
            .items (Item.conservesEach_middle_iff.mpr
              ⟨first, whole, last, rfl, isEarlier, isWhole, isLater⟩)
          exact ⟨_, conserves.change_children distinctMembers eachChanged,
            .inside _ first last differ⟩

end Data.DifferAt

namespace Breadcrumb

open Item (IsItem HasKnownKeys Conserves)

variable {first second raw other : Data} {name : String} {path : List String}

/-- Without their parents, two breadcrumbs that differ below differ in the same way. -/
theorem withoutParent_differAt (differ : Data.DifferAt first second (name :: path) raw other) :
    Data.DifferAt first second (name :: path) (withoutParent raw) (withoutParent other) := by
  cases differ with
  | inside before after earlier later differ =>
      have isKept (value : Data) :
          Fields.erase (before ++ ("children", value) :: after) "parent" =
            Fields.erase before "parent" ++ ("children", value) :: Fields.erase after "parent" := by
        simp [Fields.erase]
      rw [withoutParent, withoutParent, isKept, isKept]
      exact .inside _ _ earlier later differ

/-- They have the same parents, whether these are texts or not. -/
theorem hasParentText_differAt_iff (differ : Data.DifferAt first second (name :: path) raw other) :
    HasParentText raw ↔ HasParentText other := by
  cases differ with
  | inside before after earlier later differ => simp [HasParentText]

theorem parent?_differAt (differ : Data.DifferAt first second (name :: path) raw other) :
    parent? raw = parent? other := by
  cases differ with
  | inside before after earlier later differ =>
      have differs : "children" ≠ "parent" := by decide
      simp only [parent?, Data.member?, Fields.get?_middle_of_ne differs]

/-- A strict grammar refuses a breadcrumb with an unknown key below. -/
theorem normalize_strict_error_of_unknown
    (differ : Data.DifferAt first second (name :: path) raw other)
    (unknown : ¬ HasKnownKeys Item.knownKeys first) (location : String) :
    ∃ detail, normalize true location raw = .error (.validation location detail) := by
  cases isRead : normalize true location raw with
  | ok breadcrumb =>
      obtain ⟨-, known⟩ := normalize_strict_eq_ok_iff.mp isRead
      cases differ with
      | inside before after earlier later differ =>
          obtain ⟨-, isBelow⟩ := known
          have knownBelow := isBelow _ _ rfl (List.mem_append_right _ List.mem_cons_self) _
            (List.mem_append_right _ List.mem_cons_self)
          exact absurd (differ.hasKnownKeys knownBelow) unknown
  | error error =>
      obtain ⟨detail, rfl⟩ := normalize_eq_error isRead
      exact ⟨detail, rfl⟩

/-- Data describes some breadcrumb if it names a parent by a text and is an item without it. -/
theorem exists_normalize_iff {strict : Bool} {location : String} {raw : Data} :
    (∃ breadcrumb, normalize strict location raw = .ok breadcrumb) ↔
      HasParentText raw ∧ IsItem strict (withoutParent raw) := by
  constructor
  · rintro ⟨breadcrumb, isBreadcrumb⟩
    obtain ⟨hasText, isItem, -⟩ := normalize_eq_ok_iff.mp isBreadcrumb
    exact ⟨hasText, (Item.normalize_eq_ok_iff.mp isItem).1⟩
  · rintro ⟨hasText, isItem⟩
    obtain ⟨item, isRead⟩ := Item.exists_read_expand isItem
    exact ⟨⟨_, item⟩,
      normalize_eq_ok_iff.mpr ⟨hasText, Item.normalize_eq_ok_iff.mpr ⟨isItem, isRead⟩, rfl⟩⟩

/-- Names stay distinct without the parent. -/
theorem distinct_withoutParent {raw : Data} (distinct : raw.Distinct) :
    (withoutParent raw).Distinct := by
  cases raw with
  | object members => exact distinct.erase "parent"
  | null | bool _ | number _ | string _ | array _ => exact distinct

/-- A breadcrumb that differs from another one below describes what the other one describes, with
the same difference in the item below. -/
theorem exists_normalize_of_differAt {strict : Bool} {location : String} {rest : Breadcrumb}
    (differ : Data.DifferAt first second (name :: path) raw other)
    (distinct : raw.Distinct) (distinctInner : first.Distinct → second.Distinct)
    (inner : IsItem strict first ↔ IsItem strict second)
    (isRest : normalize strict location other = .ok rest) :
    ∃ child, Conserves second child ∧ ∀ changed, Conserves first changed →
      ∃ item, normalize strict location raw = .ok ⟨rest.parent, item⟩ ∧
        Item.DifferAt changed child (name :: path) item rest.item := by
  obtain ⟨hasText, isOther, isParent⟩ := normalize_eq_ok_iff.mp isRest
  obtain ⟨isItem, isRead⟩ := Item.normalize_eq_ok_iff.mp isOther
  have differItems := withoutParent_differAt differ
  have distinctOther := distinct_withoutParent (differ.distinct distinctInner distinct)
  have conserves := Item.conserves_of_read distinctOther isItem isRead
  obtain ⟨child, conservesChild, change⟩ :=
    differItems.exists_conserves (distinct_withoutParent distinct) conserves
  refine ⟨child, conservesChild, ?_⟩
  intro changed isChanged
  obtain ⟨item, conservesItem, differAt⟩ := change changed isChanged
  refine ⟨item, ?_, differAt⟩
  have isItemToo := (differItems.isItem_iff inner).mpr isItem
  rw [parent?_expand, ← parent?_differAt differ] at isParent
  rw [normalize_eq_ok_iff, parent?_expand, hasParentText_differAt_iff differ]
  exact ⟨hasText, Item.normalize_of_conserves (distinct_withoutParent distinct) isItemToo
    conservesItem, isParent⟩

/-- The data of a breadcrumb with a parent, and of an item below it with a key of this name. -/
def nestedParent : Data :=
  .object [
    ("label", .string "Post"),
    ("parent", .string "blog"),
    ("children", .object [
      ("draft", .object [("label", .string "Draft"), ("parent", .number (.int 3 (by decide)))])])]

/-- The same data without the key below. -/
def onlyParent : Data :=
  .object [
    ("label", .string "Post"),
    ("parent", .string "blog"),
    ("children", .object [("draft", .object [("label", .string "Draft")])])]

/-- Data describes a breadcrumb exactly if it parts into its parent and data that describes its
item, in either grammar. On an item below it, at any depth, the name of the parent is a key that a
strict grammar refuses; a lenient one accepts the data as it does without the key, and the value is
then one more attribute of the item below, in its place among the others, and makes no other
difference. -/
theorem normalize_parts_off_parent (location : String) (raw : Data) (distinct : raw.Distinct) :
    (∀ strict breadcrumb, normalize strict location raw = .ok breadcrumb ↔
      ∃ rest, PartsInto raw breadcrumb.parent rest ∧
        Item.normalize strict location rest = .ok breadcrumb.item) ∧
    ∀ name path value before after other,
      Data.DifferAt (.object (before ++ ("parent", value) :: after)) (.object (before ++ after))
        (name :: path) raw other →
      (∃ detail, normalize true location raw = .error (.validation location detail)) ∧
      ((∃ breadcrumb, normalize false location raw = .ok breadcrumb) ↔
        ∃ rest, normalize false location other = .ok rest) ∧
      ∀ rest, normalize false location other = .ok rest →
        ∃ item child, normalize false location raw = .ok ⟨rest.parent, item⟩ ∧
          child.attributes = Item.attributesOf before ++ Item.attributesOf after ∧
          Item.DifferAt
            { child with attributes :=
                Item.attributesOf before ++ ("parent", value) :: Item.attributesOf after }
            child (name :: path) item rest.item := by
  refine ⟨fun strict breadcrumb => normalize_eq_ok_iff_partsInto distinct, ?_⟩
  intro name path value before after other differ
  have unknown : "parent" ∉ Item.knownKeys := by decide
  have sameItem := Item.isItem_unknown_iff unknown value before after
  refine ⟨?_, ?_, ?_⟩
  · refine normalize_strict_error_of_unknown differ ?_ location
    rintro ⟨own, -⟩
    exact unknown (own _ rfl _ (List.mem_append_right _ List.mem_cons_self))
  · rw [exists_normalize_iff, exists_normalize_iff, hasParentText_differAt_iff differ,
      (withoutParent_differAt differ).isItem_iff sameItem]
  · intro rest isRest
    have distinctInner : (Data.object (before ++ ("parent", value) :: after)).Distinct →
        (Data.object (before ++ after)).Distinct := by
      intro distinctFirst
      rw [← Fields.erase_middle (Data.distinct_object_iff.mp distinctFirst).1]
      exact distinctFirst.erase "parent"
    obtain ⟨child, conserves, change⟩ :=
      exists_normalize_of_differAt differ distinct distinctInner sameItem isRest
    have isAttribute : "parent" ∉ Item.ownKeys := by decide
    obtain ⟨areAttributes, conservesToo⟩ := conserves.add_attribute isAttribute
    obtain ⟨item, isItem, differAt⟩ := change _ conservesToo
    exact ⟨item, child, isItem, areAttributes, differAt⟩

/-- The number below is refused in a strict grammar and an attribute in a lenient one, and the text
above it is the parent. -/
theorem nestedParent_parts_off_parent :
    nestedParent.Distinct ∧
      (∃ detail, normalize true "x" nestedParent = .error (.validation "x" detail)) ∧
      ∃ item child, normalize false "x" nestedParent = .ok ⟨some "blog", item⟩ ∧
        child.attributes = [("label", .string "Draft")] ∧
        Item.DifferAt
          { child with attributes :=
              [("label", .string "Draft"), ("parent", .number (.int 3 (by decide)))] }
          child ["draft"] item
          { children := [("draft", { attributes := [("label", .string "Draft")] })]
            attributes := [("label", .string "Post")] } := by
  have distinct : nestedParent.Distinct := by
    simp [nestedParent, Data.Distinct, Data.DistinctMembers, Fields.Distinct]
  have differ : Data.DifferAt
      (.object ([("label", .string "Draft")] ++ ("parent", .number (.int 3 (by decide))) :: []))
      (.object ([("label", .string "Draft")] ++ [])) ["draft"] nestedParent onlyParent :=
    .inside [("label", .string "Post"), ("parent", .string "blog")] [] [] [] .here
  have isRest : normalize false "x" onlyParent = .ok ⟨some "blog",
      { children := [("draft", { attributes := [("label", .string "Draft")] })]
        attributes := [("label", .string "Post")] }⟩ := by cbv
  obtain ⟨refused, -, accepted⟩ := (normalize_parts_off_parent "x" nestedParent distinct).2
    _ _ _ _ _ _ differ
  exact ⟨distinct, refused, accepted _ isRest⟩

end Breadcrumb

end MenuPlan

/-
# What a document is read as

`Outline.IsDocument` is the grammar of configuration documents: null, or a mapping of menus and
breadcrumbs, where a menu is a mapping whose options and items are mappings. `Outline.Conserves`
relates the root of a document to the outline that holds it, in rules that do not follow the
reading: every menu and every breadcrumb is there under its name and in its place, and the members
of a menu split into options, items and the rest. The relation leaves nothing open: a root is
conserved by one outline at most.

The main result is that reading accepts exactly the grammar and yields exactly the outline that
conserves the root. A root that is neither null nor a mapping is an error of parsing; everything
else that is refused is an error of validation. Null stands for an empty document only: it is no
menu, and no mapping of menus.
-/

import MenuPlan.Outline
import MenuPlan.Proofs.Item.Members
import MenuPlan.Proofs.Yaml.Names

namespace MenuPlan

/-- A member of a menu: options and items are mappings, and any other key has any value. -/
inductive Menu.IsMember : String → Data → Prop where
  | options (entries : Fields Data) : IsMember "options" (.object entries)
  | items (entries : Fields Data) : IsMember "items" (.object entries)
  | other {name : String} (isOther : name ∉ ["options", "items"]) (value : Data) :
      IsMember name value

/-- The data that describes a menu. -/
inductive Menu.IsMenu : Data → Prop where
  | object {members : Fields Data} (each : ∀ entry ∈ members, IsMember entry.1 entry.2) :
      IsMenu (.object members)

/-- A menu holds all that the data says of it, and nothing else: its options and its items, where a
missing mapping is an empty one, and all other members as its attributes in their order. -/
inductive Menu.Conserves : Data → Menu → Prop where
  | object {members : Fields Data} {menu : Menu}
      (options : (Fields.get? members "options").getD (.object []) = .object menu.options)
      (items : (Fields.get? members "items").getD (.object []) = .object menu.items)
      (attributes : menu.attributes = members.filter fun member =>
        member.1 ∉ ["options", "items"]) :
      Conserves (.object members) menu

namespace Outline

/-- A member of a document: a mapping of menus, or a mapping of anything for the breadcrumbs. There
are no other keys. -/
inductive IsMember : String → Data → Prop where
  | menus {entries : Fields Data} (each : ∀ entry ∈ entries, Menu.IsMenu entry.2) :
      IsMember "menus" (.object entries)
  | breadcrumbs (entries : Fields Data) : IsMember "breadcrumbs" (.object entries)

/-- The root of a document. -/
inductive IsDocument : Data → Prop where
  | empty : IsDocument .null
  | object {members : Fields Data} (each : ∀ entry ∈ members, IsMember entry.1 entry.2) :
      IsDocument (.object members)

/-- An outline holds all that the root of a document says, and nothing else. Null is the empty
outline. Otherwise there is one menu for each entry of the menus, in their order and under their
names, and the breadcrumbs are kept as they stand; a missing mapping is an empty one. -/
inductive Conserves : Data → Outline → Prop where
  | empty : Conserves .null {}
  | object {members menus : Fields Data} {outline : Outline}
      (keys : ∀ member ∈ members, member.1 ∈ ["menus", "breadcrumbs"])
      (isMap : (Fields.get? members "menus").getD (.object []) = .object menus)
      (each : List.Forall₂ (fun raw menu => menu.1 = raw.1 ∧ Menu.Conserves raw.2 menu.2)
        menus outline.menus)
      (breadcrumbs : (Fields.get? members "breadcrumbs").getD (.object []) =
        .object outline.breadcrumbs) :
      Conserves (.object members) outline

end Outline

namespace PartSet

variable {name : String} {members : Fields Data}

/-- A part that is read as a mapping is what its member holds, and empty if there is no member. -/
theorem getD_eq_object {part : Fields Data} (set : PartSet name Data.map? members [] part)
    (distinct : Fields.Distinct members) :
    (Fields.get? members name).getD (.object []) = .object part := by
  cases found : Fields.get? members name with
  | none => rw [set.of_get?_eq_none found, Option.getD_none]
  | some value => exact Data.map?_eq_ok_iff.mp (set.of_get?_eq_some distinct found)

end PartSet

/-- Where a mapping or its absence is found under a name, the member with this name is the
mapping. -/
theorem Fields.eq_object_of_getD {members entries : Fields Data} {name : String} {value : Data}
    (distinct : Distinct members) (member : (name, value) ∈ members)
    (isMap : (get? members name).getD (.object []) = .object entries) :
    value = .object entries := by
  rwa [get?_eq_some_of_mem distinct member] at isMap

/-! ## Menus -/

namespace Menu

/-- How reading members changes a menu: options and items are set by the members with these names,
and the others are added to the attributes. -/
structure TakesIn (start : Menu) (members : List (String × Data)) (done : Menu) : Prop where
  options : PartSet "options" Data.map? members start.options done.options
  items : PartSet "items" Data.map? members start.items done.items
  attributes : done.attributes =
    start.attributes ++ members.filter fun member => member.1 ∉ ["options", "items"]

/-- Reading a member and then the rest. -/
theorem TakesIn.cons {start between done : Menu} {member : String × Data}
    {rest : List (String × Data)} (first : TakesIn start [member] between)
    (later : TakesIn between rest done) : TakesIn start (member :: rest) done where
  options := first.options.trans later.options
  items := first.items.trans later.items
  attributes := by
    rw [later.attributes, first.attributes, List.append_assoc, ← List.filter_append]
    rfl

/-- Any other key is that of an attribute. -/
theorem isOther_of_ne {name : String} (notOptions : name ≠ "options") (notItems : name ≠ "items") :
    name ∉ ["options", "items"] := by
  rw [List.mem_cons, List.mem_singleton, not_or]
  exact ⟨notOptions, notItems⟩

/-- All members are taken in. -/
theorem takesIn_of_readMembers {start done : Menu} {members : List (String × Data)}
    (isRead : readMembers start members = .ok done) : TakesIn start members done := by
  fun_induction Menu.readMembers start members generalizing done with
  | case1 start =>
      cases isRead
      exact ⟨.absent List.not_mem_nil _, .absent List.not_mem_nil _, (List.append_nil _).symm⟩
  | case2 start value rest ih =>
      obtain ⟨options, isMap, isRest⟩ := bind_eq_ok_iff.mp isRead
      have first : TakesIn start [("options", value)] { start with options } :=
        ⟨.member isMap, .other (by decide) value _, (List.append_nil _).symm⟩
      exact first.cons (ih options isRest)
  | case3 start value rest ih =>
      obtain ⟨items, isMap, isRest⟩ := bind_eq_ok_iff.mp isRead
      have first : TakesIn start [("items", value)] { start with items } :=
        ⟨.other (by decide) value _, .member isMap, (List.append_nil _).symm⟩
      exact first.cons (ih items isRest)
  | case4 start name value rest notOptions notItems ih =>
      have added : [(name, value)].filter (fun member => member.1 ∉ ["options", "items"]) =
          [(name, value)] :=
        List.filter_cons_of_pos (decide_eq_true (isOther_of_ne notOptions notItems))
      have first : TakesIn start [(name, value)]
          { start with attributes := start.attributes ++ [(name, value)] } :=
        ⟨.other (Ne.symm notOptions) value _, .other (Ne.symm notItems) value _,
          congrArg _ added.symm⟩
      exact first.cons (ih isRead)

/-- Options and items are mappings. -/
theorem isMember_iff_of_mem {name : String} (isMap : name ∈ ["options", "items"]) {value : Data} :
    IsMember name value ↔ ∃ entries, value = .object entries := by
  constructor
  · intro isMember
    cases isMember with
    | options entries | items entries => exact ⟨entries, rfl⟩
    | other isOther => exact absurd isMap isOther
  · rintro ⟨entries, rfl⟩
    rw [List.mem_cons, List.mem_singleton] at isMap
    rcases isMap with rfl | rfl
    · exact .options entries
    · exact .items entries

/-- Reading goes through exactly if every member is in the grammar. -/
theorem exists_readMembers_iff {start : Menu} {members : List (String × Data)} :
    (∃ menu, readMembers start members = .ok menu) ↔
      ∀ entry ∈ members, IsMember entry.1 entry.2 := by
  fun_induction Menu.readMembers start members with
  | case1 start => exact iff_of_true ⟨start, rfl⟩ (List.forall_mem_nil _)
  | case2 start value rest ih =>
      rw [exists_bind_eq_ok_iff, List.forall_mem_cons, isMember_iff_of_mem (by simp)]
      simp only [ih, Data.map?_eq_ok_iff, exists_and_right]
  | case3 start value rest ih =>
      rw [exists_bind_eq_ok_iff, List.forall_mem_cons, isMember_iff_of_mem (by simp)]
      simp only [ih, Data.map?_eq_ok_iff, exists_and_right]
  | case4 start name value rest notOptions notItems ih =>
      have isMember : IsMember name value := .other (isOther_of_ne notOptions notItems) value
      rw [ih, List.forall_mem_cons]
      exact (and_iff_right isMember).symm

/-- Data is read as a menu exactly if it is in the grammar. -/
theorem exists_read_iff {value : Data} : (∃ menu, read value = .ok menu) ↔ IsMenu value := by
  cases value with
  | object members =>
      rw [read, exists_readMembers_iff]
      exact ⟨.object, fun ⟨each⟩ => each⟩
  | null | bool _ | number _ | string _ | array _ => exact ⟨nofun, nofun⟩

/-- A menu conserves the data that it is read of. -/
theorem conserves_of_read {value : Data} {menu : Menu} (distinct : value.Distinct)
    (isRead : read value = .ok menu) : Conserves value menu := by
  cases value with
  | object members =>
      have distinctMembers := (Data.distinct_object_iff.mp distinct).1
      have taken := takesIn_of_readMembers isRead
      exact .object (taken.options.getD_eq_object distinctMembers)
        (taken.items.getD_eq_object distinctMembers) taken.attributes
  | null | bool _ | number _ | string _ | array _ => cases isRead

/-- Only a menu is conserved by one. -/
theorem Conserves.isMenu {value : Data} {menu : Menu} (distinct : value.Distinct)
    (conserves : Conserves value menu) : IsMenu value := by
  obtain ⟨options, items, -⟩ := conserves
  have distinctMembers := (Data.distinct_object_iff.mp distinct).1
  refine .object ?_
  rintro ⟨name, value⟩ member
  by_cases isMap : name ∈ ["options", "items"]
  · rw [isMember_iff_of_mem isMap]
    rw [List.mem_cons, List.mem_singleton] at isMap
    rcases isMap with rfl | rfl
    · exact ⟨_, Fields.eq_object_of_getD distinctMembers member options⟩
    · exact ⟨_, Fields.eq_object_of_getD distinctMembers member items⟩
  · exact .other isMap value

/-- Data is conserved by one menu at most. -/
theorem Conserves.unique {value : Data} {menu other : Menu} (first : Conserves value menu)
    (second : Conserves value other) : menu = other := by
  obtain ⟨options, items, attributes⟩ := first
  obtain ⟨otherOptions, otherItems, otherAttributes⟩ := second
  obtain ⟨_, _, _⟩ := menu
  obtain ⟨_, _, _⟩ := other
  cases options.symm.trans otherOptions
  cases items.symm.trans otherItems
  cases attributes.trans otherAttributes.symm
  rfl

end Menu

/-! ## Documents -/

namespace Outline

/-- Menus are read from a mapping, one by one. -/
theorem readMenus_eq_ok_iff {value : Data} {menus : Fields Menu} :
    readMenus value = .ok menus ↔ ∃ entries, value = .object entries ∧
      List.Forall₂ (fun raw menu => menu.1 = raw.1 ∧ Menu.read raw.2 = .ok menu.2)
        entries menus := by
  have step : ∀ (raw : String × Data) (menu : String × Menu),
      (do return (raw.1, ← Menu.read raw.2)) = Except.ok menu ↔
        menu.1 = raw.1 ∧ Menu.read raw.2 = .ok menu.2 := by
    intro raw menu
    rw [bind_eq_ok_iff]
    constructor
    · rintro ⟨value, isRead, isEntry⟩
      cases isEntry
      exact ⟨rfl, isRead⟩
    · rintro ⟨isName, isRead⟩
      exact ⟨menu.2, isRead, congrArg (fun name => Except.ok (name, menu.2)) isName.symm⟩
  rw [readMenus, bind_eq_ok_iff]
  simp only [Data.map?_eq_ok_iff, mapM_eq_ok_iff]
  constructor
  · rintro ⟨entries, isMap, each⟩
    exact ⟨entries, isMap, each.imp fun raw menu => (step raw menu).mp⟩
  · rintro ⟨entries, isMap, each⟩
    exact ⟨entries, isMap, each.imp fun raw menu => (step raw menu).mpr⟩

/-- The menus are a mapping of menus. -/
theorem isMember_menus_iff {value : Data} :
    IsMember "menus" value ↔
      ∃ entries, value = .object entries ∧ ∀ entry ∈ entries, Menu.IsMenu entry.2 := by
  constructor
  · intro isMember
    generalize isName : "menus" = name at isMember
    cases isMember with
    | menus each => exact ⟨_, rfl, each⟩
    | breadcrumbs => exact absurd isName (by decide)
  · rintro ⟨entries, rfl, each⟩
    exact .menus each

/-- They are read exactly if they are a mapping of menus. -/
theorem exists_readMenus_iff {value : Data} :
    (∃ menus, readMenus value = .ok menus) ↔ IsMember "menus" value := by
  rw [readMenus, exists_bind_eq_ok_iff, isMember_menus_iff]
  simp only [Data.map?_eq_ok_iff, exists_mapM_eq_ok_iff, ← exists_ok_iff, exists_bind_eq_ok_iff,
    ← Menu.exists_read_iff]
  simp [pure, Except.pure]

/-- The breadcrumbs are a mapping. -/
theorem isMember_breadcrumbs_iff {value : Data} :
    IsMember "breadcrumbs" value ↔ ∃ entries, value = .object entries := by
  constructor
  · intro isMember
    generalize isName : "breadcrumbs" = name at isMember
    cases isMember with
    | breadcrumbs entries => exact ⟨entries, rfl⟩
    | menus => exact absurd isName (by decide)
  · rintro ⟨entries, rfl⟩
    exact .breadcrumbs entries

/-- How reading members changes an outline: menus and breadcrumbs are set by the members with these
names, and there are no others. -/
structure TakesIn (start : Outline) (members : List (String × Data)) (done : Outline) :
    Prop where
  keys : ∀ member ∈ members, member.1 ∈ ["menus", "breadcrumbs"]
  menus : PartSet "menus" readMenus members start.menus done.menus
  breadcrumbs : PartSet "breadcrumbs" Data.map? members start.breadcrumbs done.breadcrumbs

/-- Reading a member and then the rest. -/
theorem TakesIn.cons {start between done : Outline} {member : String × Data}
    {rest : List (String × Data)} (first : TakesIn start [member] between)
    (later : TakesIn between rest done) : TakesIn start (member :: rest) done where
  keys := List.forall_mem_cons.mpr ⟨first.keys member List.mem_cons_self, later.keys⟩
  menus := first.menus.trans later.menus
  breadcrumbs := first.breadcrumbs.trans later.breadcrumbs

/-- All members are taken in. -/
theorem takesIn_of_readMembers {start done : Outline} {members : List (String × Data)}
    (isRead : readMembers start members = .ok done) : TakesIn start members done := by
  fun_induction Outline.readMembers start members generalizing done with
  | case1 start =>
      cases isRead
      exact ⟨List.forall_mem_nil _, .absent List.not_mem_nil _, .absent List.not_mem_nil _⟩
  | case2 start value rest ih =>
      obtain ⟨menus, areMenus, isRest⟩ := bind_eq_ok_iff.mp isRead
      have first : TakesIn start [("menus", value)] { start with menus } :=
        ⟨by simp, .member areMenus, .other (by decide) value _⟩
      exact first.cons (ih menus isRest)
  | case3 start value rest ih =>
      obtain ⟨breadcrumbs, isMap, isRest⟩ := bind_eq_ok_iff.mp isRead
      have first : TakesIn start [("breadcrumbs", value)] { start with breadcrumbs } :=
        ⟨by simp, .other (by decide) value _, .member isMap⟩
      exact first.cons (ih breadcrumbs isRest)
  | case4 => cases isRead

/-- Reading goes through exactly if every member is in the grammar. -/
theorem exists_readMembers_iff {start : Outline} {members : List (String × Data)} :
    (∃ outline, readMembers start members = .ok outline) ↔
      ∀ entry ∈ members, IsMember entry.1 entry.2 := by
  fun_induction Outline.readMembers start members with
  | case1 start => exact iff_of_true ⟨start, rfl⟩ (List.forall_mem_nil _)
  | case2 start value rest ih =>
      rw [exists_bind_eq_ok_iff, List.forall_mem_cons, ← exists_readMenus_iff]
      simp only [ih, exists_and_right]
  | case3 start value rest ih =>
      rw [exists_bind_eq_ok_iff, List.forall_mem_cons, isMember_breadcrumbs_iff]
      simp only [ih, Data.map?_eq_ok_iff, exists_and_right]
  | case4 start name value rest notMenus notBreadcrumbs =>
      rw [List.forall_mem_cons]
      apply iff_of_false nofun
      rintro ⟨isMember, -⟩
      cases isMember with
      | menus => exact notMenus rfl
      | breadcrumbs => exact notBreadcrumbs rfl

/-- A document is read exactly if its root is in the grammar. -/
theorem exists_ofData_iff {root : Data} :
    (∃ outline, ofData root = .ok outline) ↔ IsDocument root := by
  cases root with
  | null => exact iff_of_true ⟨{}, rfl⟩ .empty
  | object members =>
      have isRead : (∃ outline, ofData (.object members) = .ok outline) ↔
          ∃ outline, readMembers {} members = .ok outline := by
        rw [ofData]
        cases readMembers {} members with
        | ok outline => exact iff_of_true ⟨outline, rfl⟩ ⟨outline, rfl⟩
        | error mismatch => exact iff_of_false nofun nofun
      rw [isRead, exists_readMembers_iff]
      constructor
      · exact .object
      · rintro ⟨⟩
        assumption
  | bool _ | number _ | string _ | array _ => exact ⟨nofun, nofun⟩

/-- The menus that are read of data conserve it. -/
theorem exists_menus_of_partSet {members : Fields Data} {menus : Fields Menu}
    (set : PartSet "menus" readMenus members [] menus) (distinct : (Data.object members).Distinct) :
    ∃ entries, (Fields.get? members "menus").getD (.object []) = .object entries ∧
      List.Forall₂ (fun raw menu => menu.1 = raw.1 ∧ Menu.Conserves raw.2 menu.2)
        entries menus := by
  obtain ⟨distinctMembers, distinctBelow⟩ := Data.distinct_object_iff.mp distinct
  cases found : Fields.get? members "menus" with
  | none =>
      refine ⟨[], rfl, ?_⟩
      rw [set.of_get?_eq_none found]
      exact .nil
  | some value =>
      obtain ⟨entries, rfl, areRead⟩ :=
        readMenus_eq_ok_iff.mp (set.of_get?_eq_some distinctMembers found)
      refine ⟨entries, rfl, ?_⟩
      have distinctMenus :=
        (Data.distinct_object_iff.mp (distinctBelow _ (Fields.mem_of_get?_eq_some found))).2
      have related := (List.forall₂_and_left _ _).mpr ⟨distinctMenus, areRead⟩
      exact related.imp fun raw menu ⟨distinct, isName, isRead⟩ =>
        ⟨isName, Menu.conserves_of_read distinct isRead⟩

/-- An outline conserves the root that it is read of. -/
theorem conserves_of_ofData {root : Data} {outline : Outline} (distinct : root.Distinct)
    (isRead : ofData root = .ok outline) : Conserves root outline := by
  cases root with
  | null =>
      cases isRead
      exact .empty
  | object members =>
      rw [ofData] at isRead
      split at isRead
      · rename_i areRead
        cases isRead
        have taken := takesIn_of_readMembers areRead
        obtain ⟨entries, isMap, each⟩ := exists_menus_of_partSet taken.menus distinct
        exact .object taken.keys isMap each
          (taken.breadcrumbs.getD_eq_object (Data.distinct_object_iff.mp distinct).1)
      · cases isRead
  | bool _ | number _ | string _ | array _ => cases isRead

/-- A root is conserved by one outline at most. -/
theorem Conserves.unique {root : Data} {outline other : Outline} (first : Conserves root outline)
    (second : Conserves root other) : outline = other := by
  cases first with
  | empty =>
      cases second
      rfl
  | @object members menus outline _ isMap each breadcrumbs =>
      cases second with
      | @object _ otherMenus other _ otherIsMap otherEach otherBreadcrumbs =>
          cases isMap.symm.trans otherIsMap
          have sameMenus : outline.menus = other.menus := by
            refine List.right_unique_forall₂' ?_ each otherEach
            rintro raw menu otherMenu ⟨isName, conserves⟩ ⟨isOtherName, conservesToo⟩
            exact Prod.ext (isName.trans isOtherName.symm) (conserves.unique conservesToo)
          obtain ⟨_, _⟩ := outline
          obtain ⟨_, _⟩ := other
          cases sameMenus
          cases breadcrumbs.symm.trans otherBreadcrumbs
          rfl

/-- Only a document is conserved by an outline. -/
theorem Conserves.isDocument {root : Data} {outline : Outline} (distinct : root.Distinct)
    (conserves : Conserves root outline) : IsDocument root := by
  cases conserves with
  | empty => exact .empty
  | @object members menus outline keys isMap each breadcrumbs =>
      obtain ⟨distinctMembers, distinctBelow⟩ := Data.distinct_object_iff.mp distinct
      refine .object ?_
      rintro ⟨name, value⟩ member
      have isKey : name = "menus" ∨ name = "breadcrumbs" := by simpa using keys _ member
      rcases isKey with rfl | rfl
      · obtain rfl := Fields.eq_object_of_getD distinctMembers member isMap
        have distinctMenus := (Data.distinct_object_iff.mp (distinctBelow _ member)).2
        refine .menus fun entry inMenus => ?_
        obtain ⟨menu, -, -, conserved⟩ := exists_mem_of_forall₂_left each inMenus
        exact conserved.isMenu (distinctMenus entry inMenus)
      · exact isMember_breadcrumbs_iff.mpr
          ⟨_, Fields.eq_object_of_getD distinctMembers member breadcrumbs⟩

/-- A document is read as the outline that conserves its root. -/
theorem ofData_eq_ok_iff {root : Data} {outline : Outline} (distinct : root.Distinct) :
    ofData root = .ok outline ↔ Conserves root outline := by
  constructor
  · exact conserves_of_ofData distinct
  · intro conserves
    obtain ⟨other, isRead⟩ := exists_ofData_iff.mpr (conserves.isDocument distinct)
    rw [isRead, conserves.unique (conserves_of_ofData distinct isRead)]

/-- A root that is neither null nor a mapping is an error of parsing, and only such a root. -/
theorem ofData_eq_parse_error_iff {root : Data} :
    ofData root = .error (.parse "document root must be a mapping") ↔
      root ≠ .null ∧ ∀ members, root ≠ .object members := by
  constructor
  · intro isError
    cases root with
    | null => cases isError
    | object members =>
        rw [ofData] at isError
        split at isError <;> cases isError
    | bool _ | number _ | string _ | array _ =>
        constructor
        · rintro ⟨⟩
        · rintro members ⟨⟩
  · rintro ⟨notNull, noMap⟩
    cases root with
    | null => exact absurd rfl notNull
    | object members => exact absurd rfl (noMap members)
    | bool _ | number _ | string _ | array _ => rfl

/-- A mapping that is no document is an error of validation, at no place but the document. -/
theorem exists_ofData_eq_validation_error_iff {root : Data} :
    (∃ mismatch, ofData root = .error (.validation "document" (Mismatch.message mismatch))) ↔
      (∃ members, root = .object members) ∧ ¬ IsDocument root := by
  rw [← exists_ofData_iff]
  constructor
  · rintro ⟨mismatch, isError⟩
    rw [isError]
    refine ⟨?_, ?_⟩
    · cases root with
      | object members => exact ⟨members, rfl⟩
      | null | bool _ | number _ | string _ | array _ => cases isError
    · rintro ⟨outline, ⟨⟩⟩
  · rintro ⟨⟨members, rfl⟩, isRefused⟩
    rw [ofData] at isRefused ⊢
    cases isRead : readMembers {} members with
    | ok outline =>
        rw [isRead] at isRefused
        exact absurd ⟨outline, rfl⟩ isRefused
    | error mismatch => exact ⟨mismatch, rfl⟩

/-- A document whose menus and breadcrumbs are in no particular order, as are the keys of its first
menu. -/
def unsortedDocument : String :=
"breadcrumbs:
  leaf: ~
  root: 1
menus:
  zulu:
    label: Zulu
    items:
      second: ~
      first: ~
    icon: star
  alpha: \x7b\x7d
"

/-- What the text writes. -/
def unsortedRoot : Data :=
  .object [
    ("breadcrumbs", .object [("leaf", .null), ("root", .number (.int 1 (by decide)))]),
    ("menus", .object [
      ("zulu", .object [
        ("label", .string "Zulu"),
        ("items", .object [("second", .null), ("first", .null)]),
        ("icon", .string "star")]),
      ("alpha", .object [])])]

/-- The outline that holds it. -/
def unsortedOutline : Outline where
  menus := [
    ("zulu", {
      items := [("second", .null), ("first", .null)]
      attributes := [("label", .string "Zulu"), ("icon", .string "star")] }),
    ("alpha", {})]
  breadcrumbs := [("leaf", .null), ("root", .number (.int 1 (by decide)))]

/-- A text is accepted as a document exactly if its root is in the grammar, and it is read as the
outline that conserves the root, and as no other: menus, items and breadcrumbs keep their names and
their order, and the keys of a menu split into options, items and attributes without loss. Of the
roots that are refused, those that are neither null nor a mapping are errors of parsing, and all
others are errors of validation at the document. -/
theorem parse_reads_exactly_documents (text : String) (root : Data)
    (isRead : Yaml.read? text = some root) :
    ((∃ outline, parse text = .ok outline) ↔ IsDocument root) ∧
    (∀ outline, parse text = .ok outline ↔ Conserves root outline) ∧
    (parse text = .error (.parse "document root must be a mapping") ↔
      root ≠ .null ∧ ∀ members, root ≠ .object members) ∧
    ((∃ mismatch, parse text = .error (.validation "document" (Mismatch.message mismatch))) ↔
      (∃ members, root = .object members) ∧ ¬ IsDocument root) := by
  have isRoot : parse text = ofData root := by
    rw [parse, isRead]
  rw [isRoot]
  exact ⟨exists_ofData_iff, fun _ => ofData_eq_ok_iff (Yaml.distinct_of_read? isRead),
    ofData_eq_parse_error_iff, exists_ofData_eq_validation_error_iff⟩

/-- The unsorted document keeps its order, and a document whose menus are null is refused. -/
theorem unsortedDocument_reads_exactly :
    Yaml.read? unsortedDocument = some unsortedRoot ∧
      parse unsortedDocument = .ok unsortedOutline ∧ Conserves unsortedRoot unsortedOutline ∧
      Yaml.read? "menus: ~" = some (.object [("menus", .null)]) ∧
      ¬ IsDocument (.object [("menus", .null)]) := by
  have isRoot : Yaml.read? unsortedDocument = some unsortedRoot := by decide +kernel
  have isNull : Yaml.read? "menus: ~" = some (.object [("menus", .null)]) := by decide +kernel
  have isOutline : parse unsortedDocument = .ok unsortedOutline := by
    rw [parse, isRoot]
    decide +kernel
  have isRefused : parse "menus: ~" =
      .error (.validation "document" (Mismatch.wrongType .null "a map").message) := by
    rw [parse, isNull]
    rfl
  have ofRoot := parse_reads_exactly_documents unsortedDocument unsortedRoot isRoot
  have ofNull := parse_reads_exactly_documents "menus: ~" _ isNull
  exact ⟨isRoot, isOutline, (ofRoot.2.1 unsortedOutline).mp isOutline, isNull,
    (ofNull.2.2.2.mp ⟨_, isRefused⟩).2⟩

end Outline

end MenuPlan

/-
# Which place an error names

An item below another one can break the rules for items by its own keys. `Outline.Place` is a place
for an item anywhere in a document, with the location that remarks on this item have
(`Item.exists_itemAt_of_mem_sites`). `Offends` says that what is written there breaks the rules by
itself, whatever is above or below it. A document is accepted entry by entry exactly if nothing in
it offends.

The main result is about documents with one offender. The error is found there, for its text is the
one that the offender gets alone; but the location is that of the entry it belongs to, the top-level
item or the breadcrumb, however deep below it the offender is.
-/

import MenuPlan.Proofs.Item.Parent
import MenuPlan.Proofs.Item.Remarks
import MenuPlan.Proofs.Plan.Failure

namespace MenuPlan

/-- The data of an item below another one, at the end of a path that follows the names of items. -/
inductive Data.ItemAt : List String → Data → Data → Prop where
  | here (raw : Data) : ItemAt [] raw raw
  | inside {name : String} {path : List String} {members : Fields Data}
      {entries : List (String × Data)} {raw found : Data}
      (isChildren : ("children", .object entries) ∈ members) (isEntry : (name, raw) ∈ entries)
      (isAt : ItemAt path raw found) : ItemAt (name :: path) (.object members) found

namespace Item

/-- The value is an object of items below. -/
def HoldsItems (name : String) (value : Data) : Prop :=
  name = "children" ∧ ∃ entries, value = .object entries

/-- The data obeys the rules for items by its own keys, whatever the items below it are. -/
inductive IsItemItself (strict : Bool) : Data → Prop where
  | null : IsItemItself strict .null
  | object {members : Fields Data}
      (each : ∀ entry ∈ members, IsMember strict entry.1 entry.2 ∨ HoldsItems entry.1 entry.2) :
      IsItemItself strict (.object members)

/-- The location of the item at the end of a path, given the location that the path starts from. -/
def locationBelow (above : String) (path : List String) : String :=
  path.foldl (fun above name => above ++ ".children." ++ name) above

/-- The places in the tree of an item are those in its data, and have these locations. -/
theorem exists_itemAt_of_mem_sites {raw : Data} {item : Item} (conserves : Conserves raw item)
    {location : String} {above : List Item} {site : Site}
    (member : site ∈ item.sites location above) :
    ∃ path found, raw.ItemAt path found ∧ Conserves found site.item ∧
      site.location = locationBelow location path := by
  induction raw using Data.itemInduction generalizing item location above with
  | step raw ih =>
    rw [sites_eq_cons, childSites_eq_flatMap] at member
    rcases List.mem_cons.mp member with rfl | below
    · exact ⟨[], raw, .here raw, conserves, rfl⟩
    · obtain ⟨child, isChild, inChild⟩ := List.mem_flatMap.mp below
      cases raw with
      | object members =>
          obtain ⟨entries, isMember, entry, isEntry, sameName, ofEntry⟩ :=
            conserves.exists_entry isChild
          obtain ⟨path, found, isAt, isFound, isLocation⟩ :=
            ih members entries rfl isMember entry isEntry ofEntry inChild
          refine ⟨entry.1 :: path, found, .inside isMember isEntry isAt, isFound, ?_⟩
          rw [isLocation, sameName]
          rfl
      | null =>
          cases conserves
          cases isChild
      | bool _ | number _ | string _ | array _ => cases conserves

end Item

namespace Outline

/-- What a document consists of: the items of its menus and its breadcrumbs, by their names. -/
inductive Entry where
  | item (menu name : String)
  | breadcrumb (name : String)

/-- The data is written for the entry. -/
inductive Writes (outline : Outline) : Entry → Data → Prop where
  | item {menu : String × Menu} {raw : String × Data} (isMenu : menu ∈ outline.menus)
      (isItem : raw ∈ menu.2.items) : Writes outline (.item menu.1 raw.1) raw.2
  | breadcrumb {raw : String × Data} (isBreadcrumb : raw ∈ outline.breadcrumbs) :
      Writes outline (.breadcrumb raw.1) raw.2

/-- A place in a document: an entry, the path from there to an item below, and its data. -/
structure Place where
  entry : Entry
  path : List String
  raw : Data

/-- The location of an entry. -/
def Entry.location : Entry → String
  | item menu name => Menu.itemLocation menu name
  | breadcrumb name => Trail.location name

/-- The location of a place, as it is in remarks. -/
def Place.location (place : Place) : String :=
  Item.locationBelow place.entry.location place.path

/-- The data at a place obeys the rules by its own keys. A breadcrumb may have a parent. -/
def Place.IsFine (strict : Bool) : Place → Prop
  | ⟨.breadcrumb _, [], raw⟩ =>
      Breadcrumb.HasParentText raw ∧ Item.IsItemItself strict (Breadcrumb.withoutParent raw)
  | ⟨_, _, raw⟩ => Item.IsItemItself strict raw

/-- The place is in the document, and what is written there breaks the rules by its own keys. -/
def Offends (outline : Outline) (strict : Bool) (place : Place) : Prop :=
  (∃ raw, outline.Writes place.entry raw ∧ raw.ItemAt place.path place.raw) ∧ ¬ place.IsFine strict

end Outline

namespace Grammar

variable {strict : Bool} {keys below : List (String × Shape)} {fault : Fault}

/-- The fault that is picked is one of those found. -/
theorem exists_mem_of_first_eq_some {faults : List (String × Fault)}
    (isFirst : first strict keys faults = some fault) : ∃ name, (name, fault) ∈ faults := by
  cases strict with
  | true =>
      obtain ⟨found, isHead, rfl⟩ := Option.map_eq_some_iff.mp isFirst
      exact ⟨found.1, List.mem_of_head? isHead⟩
  | false =>
      obtain ⟨key, -, isFound⟩ := List.exists_of_findSome?_eq_some isFirst
      exact ⟨key.1, Fields.mem_of_lookup_eq_some isFound⟩

theorem exists_of_mem_memberFaults {name : String} {members : List (String × Data)}
    (member : (name, fault) ∈ memberFaults strict keys below members) :
    ∃ entry ∈ members,
      keyFault? strict below entry.1 (keys.lookup entry.1) entry.2 = some fault := by
  induction members with
  | nil => cases member
  | cons entry rest ih =>
      rw [memberFaults] at member
      cases isFault : keyFault? strict below entry.1 (keys.lookup entry.1) entry.2 with
      | none =>
          rw [isFault] at member
          obtain ⟨found, inRest, isFound⟩ := ih member
          exact ⟨found, List.mem_cons_of_mem _ inRest, isFound⟩
      | some other =>
          rw [isFault] at member
          rcases List.mem_cons.mp member with isFirst | later
          · cases isFirst
            exact ⟨entry, List.mem_cons_self, isFault⟩
          · obtain ⟨found, inRest, isFound⟩ := ih later
            exact ⟨found, List.mem_cons_of_mem _ inRest, isFound⟩

/-- The fault of an object is the fault of one of its members. -/
theorem exists_member_of_itemFault? {members : Fields Data}
    (isFault : itemFault? strict keys below (.object members) = some fault) :
    ∃ entry ∈ members,
      keyFault? strict below entry.1 (keys.lookup entry.1) entry.2 = some fault := by
  rw [itemFault?] at isFault
  obtain ⟨name, member⟩ := exists_mem_of_first_eq_some isFault
  exact exists_of_mem_memberFaults member

/-- The fault of the items below is the fault of one of them. -/
theorem exists_entry_of_childFault? {entries : List (String × Data)}
    (isFault : childFault? strict below entries = some fault) :
    ∃ entry ∈ entries, itemFault? strict below below entry.2 = some fault := by
  induction entries with
  | nil => cases isFault
  | cons entry rest ih =>
      rw [childFault?, Option.or_eq_some_iff] at isFault
      rcases isFault with isFirst | ⟨-, later⟩
      · exact ⟨entry, List.mem_cons_self, isFirst⟩
      · obtain ⟨found, inRest, isFound⟩ := ih later
        exact ⟨found, List.mem_cons_of_mem _ inRest, isFound⟩

end Grammar

namespace Item

open Grammar (itemKeys itemFault? keyFault?)

variable {strict : Bool} {fault : Fault}

/-- A member by the rules has no fault. -/
theorem hasNoFault_of_isMember {name : String} {value : Data}
    (isMember : IsMember strict name value) : HasNoFault strict name value :=
  (isMember_iff fun _ _ _ entry _ => itemFault?_eq_none_iff strict entry.2).mpr isMember

/-- Data describes an item exactly if it obeys the rules by itself and so do all items below. -/
theorem isItem_iff_forall_itemAt {raw : Data} :
    IsItem strict raw ↔ ∀ path found, raw.ItemAt path found → IsItemItself strict found := by
  constructor
  · intro isItem path found isAt
    induction isAt with
    | here raw =>
        cases isItem with
        | null => exact .null
        | object each => exact .object fun entry member => Or.inl (each entry member)
    | inside isChildren isEntry _ ih =>
        cases isItem with
        | object each =>
            exact ih ((each _ isChildren).isItem_of_mem_children rfl rfl _ isEntry)
  · intro fine
    induction raw using Data.itemInduction with
    | step raw ih =>
      cases fine [] raw (.here raw) with
      | null => exact .null
      | @object members each =>
          refine .object fun entry member => ?_
          obtain ⟨name, value⟩ := entry
          rcases each _ member with isMember | ⟨isChildren, entries, isObject⟩
          · exact isMember
          · dsimp only at isChildren isObject
            subst isChildren isObject
            refine .children fun entry isEntry => ?_
            exact ih members entries rfl member entry isEntry fun path found isAt =>
              fine _ found (.inside member isEntry isAt)

/-- If a member obeys the rules but for the items below, a fault in it is a fault of one of them. -/
theorem exists_below_of_keyFault? {name : String} {value : Data}
    (obeys : IsMember strict name value ∨ HoldsItems name value)
    (isFault : keyFault? strict itemKeys name (itemKeys.lookup name) value = some fault) :
    ∃ entries, name = "children" ∧ value = .object entries ∧
      ∃ entry ∈ entries, itemFault? strict itemKeys itemKeys entry.2 = some fault := by
  rcases obeys with isMember | ⟨rfl, entries, rfl⟩
  · have noFault : keyFault? strict itemKeys name (itemKeys.lookup name) value = none :=
      hasNoFault_of_isMember isMember
    rw [noFault] at isFault
    cases isFault
  · have isShape : itemKeys.lookup "children" = some .children := rfl
    rw [isShape, keyFault?] at isFault
    exact ⟨entries, rfl, rfl, Grammar.exists_entry_of_childFault? isFault⟩

/-- If nothing else offends, the fault of an item is that of the offender below it. -/
theorem itemFault?_of_only {path : List String} {raw found : Data}
    (isFault : itemFault? strict itemKeys itemKeys raw = some fault)
    (only : ∀ other otherRaw, raw.ItemAt other otherRaw → ¬ IsItemItself strict otherRaw →
      other = path ∧ otherRaw = found) :
    itemFault? strict itemKeys itemKeys found = some fault := by
  induction path generalizing raw with
  | nil =>
      have broken : ¬ IsItem strict raw := by
        rw [← itemFault?_eq_none_iff, isFault]
        nofun
      rw [isItem_iff_forall_itemAt] at broken
      push Not at broken
      obtain ⟨path, other, isAt, offends⟩ := broken
      obtain ⟨rfl, rfl⟩ := only path other isAt offends
      cases isAt
      exact isFault
  | cons name path ih =>
      have obeys : IsItemItself strict raw := by
        by_contra offends
        cases (only [] raw (.here raw) offends).1
      cases obeys with
      | null =>
          rw [itemFault?] at isFault
          cases isFault
      | object each =>
          obtain ⟨⟨key, value⟩, member, isKeyFault⟩ := Grammar.exists_member_of_itemFault? isFault
          obtain ⟨entries, rfl, rfl, entry, isEntry, isBelow⟩ :=
            exists_below_of_keyFault? (each _ member) isKeyFault
          refine ih isBelow fun other otherRaw isAt offends => ?_
          obtain ⟨samePath, sameRaw⟩ := only _ _ (.inside member isEntry isAt) offends
          exact ⟨(List.cons.inj samePath).2, sameRaw⟩

end Item

/-! ## Refusals -/

/-- Data does not pass the check for its fault. -/
theorem Item.check_eq_error_iff {grammar : Grammar} {location : String} {raw : Data}
    {error : CompileError} :
    check grammar location raw = .error error ↔
      ∃ fault, grammar.fault? raw = some fault ∧ error = .validation location fault.message := by
  rw [check]
  cases grammar.fault? raw with
  | none =>
      constructor
      · rintro ⟨⟩
      · rintro ⟨_, ⟨⟩, -⟩
  | some fault =>
      constructor
      · rintro ⟨⟩
        exact ⟨fault, rfl, rfl⟩
      · rintro ⟨_, ⟨⟩, rfl⟩
        rfl

/-- Data is refused as an item for its fault. -/
theorem Item.normalize_eq_error_iff {strict : Bool} {location : String} {raw : Data}
    {error : CompileError} :
    normalize strict location raw = .error error ↔ ∃ fault,
      (Grammar.item strict).fault? raw = some fault ∧
        error = .validation location fault.message := by
  rw [normalize, bind_eq_error_iff, check_eq_error_iff]
  apply or_iff_left
  rintro ⟨_, passed, unread⟩
  obtain ⟨item, isRead⟩ := exists_read_expand (check_eq_ok_iff.mp passed)
  rw [ofExpanded_eq_ok_iff.mpr isRead] at unread
  cases unread

/-- Data is refused as a breadcrumb for its fault. -/
theorem Breadcrumb.normalize_eq_error_iff {strict : Bool} {location : String} {raw : Data}
    {error : CompileError} :
    normalize strict location raw = .error error ↔ ∃ fault,
      (Grammar.breadcrumb strict).fault? raw = some fault ∧
        error = .validation location fault.message := by
  rw [normalize, bind_eq_error_iff, Item.check_eq_error_iff]
  apply or_iff_left
  rintro ⟨_, passed, failed⟩
  obtain ⟨breadcrumb, succeeds⟩ : ∃ breadcrumb, normalize strict location raw = .ok breadcrumb :=
    exists_normalize_iff.mpr (check_eq_ok_iff.mp passed).symm
  rw [normalize, passed, ok_bind, failed] at succeeds
  cases succeeds

/-- Taking out the parent of a breadcrumb takes away nothing below. -/
theorem Breadcrumb.itemAt_withoutParent_iff {name : String} {path : List String}
    {raw found : Data} :
    (withoutParent raw).ItemAt (name :: path) found ↔ raw.ItemAt (name :: path) found := by
  cases raw with
  | object members =>
      constructor
      · intro isAt
        cases isAt with
        | inside isChildren isEntry isAt =>
            exact .inside (List.mem_of_mem_filter isChildren) isEntry isAt
      · intro isAt
        cases isAt with
        | inside isChildren isEntry isAt =>
            exact .inside (List.mem_filter.mpr ⟨isChildren, by simp⟩) isEntry isAt
  | null | bool _ | number _ | string _ | array _ => exact Iff.rfl

namespace Outline

variable {settings : Settings} {strict : Bool} {outline : Outline} {entry : Entry} {raw : Data}

namespace Entry

/-- The grammar of an entry. -/
def grammar (strict : Bool) : Entry → Grammar
  | item _ _ => .item strict
  | breadcrumb _ => .breadcrumb strict

/-- The data is refused for the entry, with an error. -/
def Refuses (settings : Settings) (error : CompileError) : Entry → Data → Prop
  | item menu name, raw =>
      Item.normalize settings.strictItems (Menu.itemLocation menu name) raw = .error error
  | breadcrumb name, raw =>
      Breadcrumb.normalize settings.strictItems (Trail.location name) raw = .error error

/-- Data is refused for its fault, at the location of the entry. -/
theorem refuses_iff {error : CompileError} :
    entry.Refuses settings error raw ↔ ∃ fault,
      (entry.grammar settings.strictItems).fault? raw = some fault ∧
        error = .validation entry.location fault.message := by
  cases entry with
  | item menu name => exact Item.normalize_eq_error_iff
  | breadcrumb name => exact Breadcrumb.normalize_eq_error_iff

/-- The data of an entry has no fault exactly if every place in it is fine. -/
theorem fault?_eq_none_iff :
    (entry.grammar strict).fault? raw = none ↔
      ∀ path found, raw.ItemAt path found → Place.IsFine strict ⟨entry, path, found⟩ := by
  cases entry with
  | item menu name =>
      exact (Item.itemFault?_eq_none_iff strict raw).trans Item.isItem_iff_forall_itemAt
  | breadcrumb name =>
      have passes : (Grammar.breadcrumb strict).fault? raw = none ↔
          Item.IsItem strict (Breadcrumb.withoutParent raw) ∧ Breadcrumb.HasParentText raw :=
        Item.check_eq_ok_iff_fault?.symm.trans (@Breadcrumb.check_eq_ok_iff strict "" raw)
      rw [grammar, passes, Item.isItem_iff_forall_itemAt]
      constructor
      · rintro ⟨fine, hasText⟩ path found isAt
        cases path with
        | nil =>
            cases isAt
            exact ⟨hasText, fine [] _ (.here _)⟩
        | cons child path => exact fine _ _ (Breadcrumb.itemAt_withoutParent_iff.mpr isAt)
      · intro fine
        obtain ⟨hasText, own⟩ := fine [] raw (.here raw)
        refine ⟨fun path found isAt => ?_, hasText⟩
        cases path with
        | nil =>
            cases isAt
            exact own
        | cons child path =>
            exact fine _ _ (Breadcrumb.itemAt_withoutParent_iff.mp isAt)

/-- If nothing else offends, the fault of an entry is that of the offender below it. -/
theorem fault?_of_only {path : List String} {found : Data} {fault : Fault}
    (isFault : (entry.grammar strict).fault? raw = some fault) (isBelow : path ≠ [])
    (only : ∀ other otherRaw, raw.ItemAt other otherRaw →
      ¬ Place.IsFine strict ⟨entry, other, otherRaw⟩ → other = path ∧ otherRaw = found) :
    (Grammar.item strict).fault? found = some fault := by
  cases entry with
  | item menu name => exact Item.itemFault?_of_only isFault only
  | breadcrumb name =>
      obtain ⟨child, rest, rfl⟩ := List.exists_cons_of_ne_nil isBelow
      have fine : Place.IsFine strict ⟨.breadcrumb name, [], raw⟩ := by
        by_contra offends
        cases (only [] raw (.here raw) offends).1
      obtain ⟨hasText, obeys⟩ := fine
      cases raw with
      | object members =>
          obtain ⟨⟨key, value⟩, member, isKeyFault⟩ :
              ∃ entry ∈ members, Grammar.keyFault? strict Grammar.itemKeys entry.1
                ((Grammar.itemKeys ++ [("parent", Grammar.optionalText)]).lookup entry.1) entry.2 =
                  some fault :=
            Grammar.exists_member_of_itemFault? isFault
          by_cases isParent : key = "parent"
          · subst isParent
            have isText := hasText members rfl value member
            rw [Breadcrumb.keyFault?_parent_eq_none_iff.mpr isText] at isKeyFault
            cases isKeyFault
          · rw [Breadcrumb.lookup_of_ne_parent isParent] at isKeyFault
            have remains : (key, value) ∈ Fields.erase members "parent" :=
              List.mem_filter.mpr ⟨member, by simpa using isParent⟩
            cases obeys with
            | object each =>
                obtain ⟨entries, rfl, rfl, entry, isEntry, isBelow⟩ :=
                  Item.exists_below_of_keyFault? (each _ remains) isKeyFault
                have onlyInside : ∀ other otherRaw, entry.2.ItemAt other otherRaw →
                    ¬ Item.IsItemItself strict otherRaw → other = rest ∧ otherRaw = found := by
                  intro other otherRaw isAt offends
                  obtain ⟨samePath, sameRaw⟩ := only _ _ (.inside member isEntry isAt) offends
                  exact ⟨(List.cons.inj samePath).2, sameRaw⟩
                exact Item.itemFault?_of_only isBelow onlyInside
      | null =>
          rw [grammar, Grammar.fault?, Grammar.itemFault?] at isFault
          cases isFault
      | bool _ | number _ | string _ | array _ => cases obeys

end Entry

/-- A document with an entry that is refused fails with the error of such an entry. -/
theorem exists_compile_eq_error {error : CompileError} (written : outline.Writes entry raw)
    (refused : entry.Refuses settings error raw) :
    ∃ other otherRaw otherError, outline.compile settings = .error otherError ∧
      outline.Writes other otherRaw ∧ other.Refuses settings otherError otherRaw := by
  have notAccepted : ¬ ((∀ menu ∈ outline.menus, ¬ Menu.HasRefusedItem settings menu) ∧
      ∀ raw ∈ outline.breadcrumbs, ¬ Breadcrumb.IsRefused settings raw) := by
    rintro ⟨items, breadcrumbs⟩
    cases written with
    | item isMenu isItem => exact items _ isMenu ⟨_, isItem, error, refused⟩
    | breadcrumb isBreadcrumb => exact breadcrumbs _ isBreadcrumb ⟨error, refused⟩
  cases isResult : outline.compile settings with
  | ok compiled =>
      obtain ⟨menus, breadcrumbs, trails, isMenus, isRead, -⟩ := compile_eq_ok_iff.mp isResult
      exact absurd ⟨Plan.exists_menuEntries_iff.mp ⟨menus, isMenus⟩,
        Plan.exists_readBreadcrumbs_iff.mp ⟨breadcrumbs, isRead⟩⟩ notAccepted
  | error otherError =>
      cases compile_eq_error_iff_failsWith.mp isResult with
      | item firstMenu firstItem refused =>
          exact ⟨_, _, _, rfl, .item firstMenu.mem firstItem.mem, refused⟩
      | breadcrumb items first refused => exact ⟨_, _, _, rfl, .breadcrumb first.mem, refused⟩
      | @linking breadcrumbs _ items read unlinked =>
          have isRead := Plan.readBreadcrumbs_eq_ok_iff.mpr read
          exact absurd ⟨items, Plan.exists_readBreadcrumbs_iff.mp ⟨breadcrumbs, isRead⟩⟩ notAccepted

/-- Only an entry has its own location. -/
theorem Place.location_eq_iff (place : Place) :
    place.entry.location = place.location ↔ place.path = [] := by
  have grows (path : List String) (above : String) :
      above.length ≤ (Item.locationBelow above path).length := by
    induction path generalizing above with
    | nil => exact Nat.le_refl _
    | cons name rest ih =>
        have longer := ih (above ++ ".children." ++ name)
        simp only [String.length_append] at longer
        rw [Item.locationBelow, List.foldl_cons]
        exact Nat.le_trans (by omega) longer
  obtain ⟨entry, path, raw⟩ := place
  cases path with
  | nil => exact iff_of_true rfl rfl
  | cons name rest =>
      refine iff_of_false ?_ (List.cons_ne_nil _ _)
      intro same
      have longer := grows rest (entry.location ++ ".children." ++ name)
      have separated : 0 < ".children.".length := by decide
      have isLonger : entry.location =
          Item.locationBelow (entry.location ++ ".children." ++ name) rest := same
      rw [← isLonger, String.length_append, String.length_append] at longer
      omega

/-- A menu with an item below an item that has a text for a flag. -/
def textBelow : Outline where
  menus := [("main", {
    items := [
      ("home", .object [
        ("children", .object [("about", .object [("display", .string "yes")])])])] })]

/-- The place where this is written. -/
def about : Place :=
  ⟨.item "main" "home", ["about"], .object [("display", .string "yes")]⟩

/-- In a document with exactly one place that breaks the rules for items by its own keys, the error
is about what is written there: it has the text that this gets as an item by itself. But the
location is that of the entry that the place belongs to, and so it is that of the place only if the
place is an entry. -/
theorem compile_names_entry_of_offender (settings : Settings) (outline : Outline) (place : Place)
    (only : ∀ other, outline.Offends settings.strictItems other ↔ other = place) :
    ∃ detail, outline.compile settings = .error (.validation place.entry.location detail) ∧
      (place.entry.location = place.location ↔ place.path = []) ∧
      (place.path ≠ [] → ∀ location,
        Item.normalize settings.strictItems location place.raw =
          .error (.validation location detail)) := by
  obtain ⟨⟨raw, written, isAt⟩, offends⟩ := (only place).mpr rfl
  obtain ⟨fault, isFault⟩ : ∃ fault,
      (place.entry.grammar settings.strictItems).fault? raw = some fault := by
    rw [← Option.ne_none_iff_exists']
    intro noFault
    exact offends (Entry.fault?_eq_none_iff.mp noFault _ _ isAt)
  obtain ⟨entry, otherRaw, error, failed, otherWritten, refused⟩ :=
    exists_compile_eq_error written (Entry.refuses_iff.mpr ⟨fault, isFault, rfl⟩)
  obtain ⟨reported, isReported, rfl⟩ := Entry.refuses_iff.mp refused
  have onlyHere : ∀ path found, otherRaw.ItemAt path found →
      ¬ Place.IsFine settings.strictItems ⟨entry, path, found⟩ → ⟨entry, path, found⟩ = place :=
    fun path found isAt offends => (only _).mp ⟨⟨otherRaw, otherWritten, isAt⟩, offends⟩
  have broken : ¬ ∀ path found, otherRaw.ItemAt path found →
      Place.IsFine settings.strictItems ⟨entry, path, found⟩ := by
    rw [← Entry.fault?_eq_none_iff, isReported]
    nofun
  push Not at broken
  obtain ⟨path, found, isAtToo, offendsToo⟩ := broken
  obtain rfl := onlyHere path found isAtToo offendsToo
  refine ⟨reported.message, failed, Place.location_eq_iff _, ?_⟩
  intro isBelow location
  have isFault := Entry.fault?_of_only isReported isBelow fun other otherRaw isAt offends => by
    have same := onlyHere other otherRaw isAt offends
    cases same
    exact ⟨rfl, rfl⟩
  exact Item.normalize_eq_error_iff.mpr ⟨reported, isFault, rfl⟩

/-- Only this place offends. -/
theorem offends_textBelow_iff (place : Place) : textBelow.Offends true place ↔ place = about := by
  constructor
  · obtain ⟨entry, path, found⟩ := place
    rintro ⟨⟨raw, written, isAt⟩, offends⟩
    cases written with
    | breadcrumb isBreadcrumb => cases isBreadcrumb
    | item isMenu isItem =>
        obtain rfl := List.mem_singleton.mp isMenu
        obtain rfl := List.mem_singleton.mp isItem
        cases isAt with
        | here =>
            refine absurd ?_ offends
            exact .object (List.forall_mem_singleton.mpr (Or.inr ⟨rfl, _, rfl⟩))
        | inside isChildren isEntry isAt =>
            cases List.mem_singleton.mp isChildren
            cases List.mem_singleton.mp isEntry
            cases isAt with
            | here => rfl
            | inside isChildren =>
                have sameKey : "children" = "display" :=
                  congrArg Prod.fst (List.mem_singleton.mp isChildren)
                exact absurd sameKey (by decide)
  · rintro rfl
    have written : textBelow.Writes (.item "main" "home")
        (.object [("children", .object [("about", about.raw)])]) :=
      @Writes.item textBelow ("main", _) ("home", _) List.mem_cons_self List.mem_cons_self
    refine ⟨⟨_, written, .inside List.mem_cons_self List.mem_cons_self (.here _)⟩, ?_⟩
    intro fine
    have obeys : Item.IsItemItself true (.object [("display", .string "yes")]) := fine
    cases obeys with
    | object each =>
        rcases each ("display", .string "yes") List.mem_cons_self with isMember | ⟨isChildren, -⟩
        · have isFlag := (Item.hasNoFault_flag_iff (by decide)).mp
            (Item.hasNoFault_of_isMember isMember)
          simp at isFlag
        · exact absurd isChildren (by decide)

/-- The text of the error is that of the item below, and its location is that of the one above. -/
theorem textBelow_names_home :
    (∀ other, textBelow.Offends true other ↔ other = about) ∧ ∃ detail,
      textBelow.compile {} = .error (.validation "menus.main.items.home" detail) ∧
        Item.normalize true "about" about.raw = .error (.validation "about" detail) := by
  obtain ⟨detail, failed, -, alone⟩ :=
    compile_names_entry_of_offender {} textBelow about offends_textBelow_iff
  exact ⟨offends_textBelow_iff, detail, failed, alone (List.cons_ne_nil _ _) "about"⟩

/-- So the error does not name the item that it is about. -/
theorem textBelow_about_not_named :
    (∀ other, textBelow.Offends true other ↔ other = about) ∧
      about.location = "menus.main.items.home.children.about" ∧
      textBelow.compile {} = .error (.validation "menus.main.items.home"
        "\"yes\" is not of type \"boolean\"") ∧
      ¬ ∃ detail, textBelow.compile {} = .error (.validation about.location detail) := by
  have failed : textBelow.compile {} = .error (.validation "menus.main.items.home"
      "\"yes\" is not of type \"boolean\"") := by rfl
  have isLocation : about.location = "menus.main.items.home.children.about" := by rfl
  refine ⟨offends_textBelow_iff, isLocation, failed, ?_⟩
  rintro ⟨detail, named⟩
  rw [failed, isLocation] at named
  have different : "menus.main.items.home" ≠ "menus.main.items.home.children.about" := by decide
  exact different (CompileError.validation.inj (Except.error.inj named)).1

end Outline

end MenuPlan

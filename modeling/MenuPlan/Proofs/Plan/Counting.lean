/-
# How many remarks are kept

An ancestor of several breadcrumbs is remarked upon once for each trail, and the copies are left
out. What is left out are remarks with the same text at the same location, and names may be such
that different items are at one location. `Site.Collides` says when two places are remarked upon in
the same words. The main result counts: no remark is lost on the items of the menus exactly if no
two of their reached places collide, and the same holds of the breadcrumbs, each of which counts
once. Where no name has the word that stands before the next name in a location, no places collide.
-/

import MenuPlan.Proofs.Item.Parent
import MenuPlan.Proofs.Plan.Locations

namespace MenuPlan

namespace Warning

/-- As many warnings are collected as there are different ones. -/
theorem length_collect_congr {raised other : List Warning}
    (same : ∀ warning, warning ∈ raised ↔ warning ∈ other) :
    (collect [] raised).length = (collect [] other).length := by
  have nodup (raised : List Warning) : (collect [] raised).Nodup :=
    nodup_collect List.nodup_nil raised
  apply List.Perm.length_eq
  rw [List.perm_ext_iff_of_nodup (nodup raised) (nodup other)]
  intro warning
  rw [mem_collect, mem_collect, same]

/-- All warnings are kept exactly if no two of them are the same. -/
theorem length_collect_eq_iff {raised : List Warning} :
    (collect [] raised).length = raised.length ↔ raised.Nodup := by
  have nodup : (collect [] raised).Nodup := nodup_collect List.nodup_nil raised
  have sameMembers : ∀ warning, warning ∈ collect [] raised ↔ warning ∈ raised := by
    intro warning
    rw [mem_collect, or_iff_right List.not_mem_nil]
  constructor
  · intro sameLength
    have isSubperm : (collect [] raised).Subperm raised :=
      nodup.subperm fun warning => (sameMembers warning).mp
    exact (isSubperm.perm_of_length_le sameLength.ge).nodup_iff.mp nodup
  · intro nodupRaised
    exact ((List.perm_ext_iff_of_nodup nodup nodupRaised).mpr sameMembers).length_eq

end Warning

namespace Item

/-- Which of service, expression and children are set. -/
def rivals (item : Item) : List Bool :=
  [decide (item.service ≠ none), decide (¬ IsBlank item.expression), decide (item.children ≠ [])]

/-- Two of service, expression and children are set, or all of them. -/
def HasConflict (item : Item) : Prop :=
  2 ≤ item.rivals.count true

instance (item : Item) : Decidable item.HasConflict :=
  inferInstanceAs (Decidable (_ ≤ _))

/-- There is a service with parameters that no method takes. -/
def HasIdleService (item : Item) : Prop :=
  ∃ service ∈ item.service, service.HasIdleParameters

instance (item : Item) : Decidable item.HasIdleService :=
  inferInstanceAs (Decidable (∃ _ ∈ _, _))

/-- The codes of what there is to remark on an item. -/
def codes (item : Item) : List String :=
  (if item.HasConflict then ["W2030"] else []) ++ if item.HasIdleService then ["W2031"] else []

/-- What is said of the keys in conflict. -/
def conflictText (item : Item) : Option String :=
  conflict (item.service ≠ none) (¬ IsBlank item.expression) (item.children ≠ [])

/-- There is something to say exactly if two keys are set. -/
theorem isSome_conflictText_iff (item : Item) : item.conflictText.isSome ↔ item.HasConflict := by
  have isSome : ∀ service expression children : Bool,
      (conflict service expression children).isSome ↔
        2 ≤ [service, expression, children].count true := by decide
  exact isSome _ _ _

/-- What is said names the keys that are set. -/
theorem conflictText_eq_iff {item other : Item} (hasConflict : item.HasConflict) :
    item.conflictText = other.conflictText ↔ item.rivals = other.rivals := by
  have sameKeys : ∀ service expression children otherService otherExpression otherChildren : Bool,
      (conflict service expression children).isSome →
      conflict service expression children =
        conflict otherService otherExpression otherChildren →
      [service, expression, children] = [otherService, otherExpression, otherChildren] := by
    decide +kernel
  constructor
  · exact sameKeys _ _ _ _ _ _ ((isSome_conflictText_iff item).mpr hasConflict)
  · intro sameRivals
    simp only [rivals, List.cons.injEq] at sameRivals
    obtain ⟨sameService, sameExpression, sameChildren, -⟩ := sameRivals
    rw [conflictText, sameService, sameExpression, sameChildren, conflictText]

/-- What is said of idle parameters names the id of the service. -/
theorem idleParameters_eq_iff {service other : Service} :
    idleParameters service = idleParameters other ↔ service.id = other.id := by
  rw [idleParameters, idleParameters, String.append_left_inj, String.append_right_inj]

/-- A remark at a place is one on keys in conflict or one on idle parameters. -/
theorem mem_remarks_iff {location : String} {item : Item} {warning : Warning} :
    warning ∈ item.remarks location ↔
      (∃ text, item.conflictText = some text ∧ warning = ⟨"W2030", text, some location⟩) ∨
      ∃ service ∈ item.service, service.HasIdleParameters ∧
        warning = ⟨"W2031", idleParameters service, some location⟩ := by
  simp only [remarks, List.mem_append, List.mem_map, Option.mem_toList, List.mem_filter,
    decide_eq_true_eq, and_assoc]
  constructor
  · rintro (⟨text, isText, rfl⟩ | ⟨service, isSet, isIdle, rfl⟩)
    · exact Or.inl ⟨text, isText, rfl⟩
    · exact Or.inr ⟨service, isSet, isIdle, rfl⟩
  · rintro (⟨text, isText, rfl⟩ | ⟨service, isSet, isIdle, rfl⟩)
    · exact Or.inl ⟨text, isText, rfl⟩
    · exact Or.inr ⟨service, isSet, isIdle, rfl⟩

/-- There is one remark for each code. -/
theorem map_code_remarks (location : String) (item : Item) :
    (item.remarks location).map Warning.code = item.codes := by
  have onKeys : item.conflictText.toList.map (fun _ => "W2030") =
      if item.HasConflict then ["W2030"] else [] := by
    have isText := isSome_conflictText_iff item
    cases found : item.conflictText with
    | none => simpa [found] using isText
    | some text => simpa [found] using isText
  have onParameters : ((item.service.toList.filter fun service =>
      service.HasIdleParameters).map fun _ => "W2031") =
        if item.HasIdleService then ["W2031"] else [] := by
    cases provided : item.service with
    | none => simp [HasIdleService, provided]
    | some service =>
        by_cases isIdle : service.HasIdleParameters
        · simp [HasIdleService, provided, isIdle]
        · simp [HasIdleService, provided, isIdle]
  rw [remarks, List.map_append, List.map_map, List.map_map, codes, ← onKeys, ← onParameters]
  rfl

/-- No remark is made twice at one place. -/
theorem nodup_remarks (location : String) (item : Item) : (item.remarks location).Nodup := by
  apply List.Nodup.of_map Warning.code
  rw [map_code_remarks, codes]
  split <;> split <;> decide

end Item

namespace Item.Site

/-- The remarks at some places. -/
def remarks (places : List Site) : List Warning :=
  places.flatMap fun site => site.item.remarks site.location

/-- The codes of what there is to remark at some places, each with its place. -/
def codes (places : List Site) : List (Site × String) :=
  places.flatMap fun site => site.item.codes.map fun code => (site, code)

/-- Two places at one location are remarked upon in the same words: the same keys are in conflict,
or both have idle parameters for a service of the same id. -/
def Collides (first second : Site) : Prop :=
  first.location = second.location ∧
    ((first.item.HasConflict ∧ first.item.rivals = second.item.rivals) ∨
      ∃ service ∈ first.item.service, ∃ other ∈ second.item.service,
        service.HasIdleParameters ∧ other.HasIdleParameters ∧ service.id = other.id)

/-- There is one remark for each code at each place. -/
theorem length_remarks (places : List Site) : (remarks places).length = (codes places).length := by
  have each (site : Site) : (site.item.remarks site.location).length = site.item.codes.length := by
    rw [← map_code_remarks site.location, List.length_map]
  simp only [remarks, codes, List.length_flatMap, List.length_map, each]

/-- Two places collide exactly if they have a remark in common. -/
theorem collides_iff {first second : Site} :
    first.Collides second ↔ ∃ warning, warning ∈ first.item.remarks first.location ∧
      warning ∈ second.item.remarks second.location := by
  simp only [mem_remarks_iff]
  constructor
  · rintro ⟨sameLocation,
      ⟨hasConflict, sameRivals⟩ | ⟨service, isSet, other, isOther, idle, otherIdle, sameId⟩⟩
    · obtain ⟨text, isText⟩ := Option.isSome_iff_exists.mp
        ((isSome_conflictText_iff first.item).mpr hasConflict)
      have isSecond := ((conflictText_eq_iff hasConflict).mpr sameRivals).symm.trans isText
      exact ⟨_, Or.inl ⟨text, isText, rfl⟩, Or.inl ⟨text, isSecond, by rw [sameLocation]⟩⟩
    · refine ⟨_, Or.inr ⟨service, isSet, idle, rfl⟩, Or.inr ⟨other, isOther, otherIdle, ?_⟩⟩
      rw [sameLocation, idleParameters_eq_iff.mpr sameId]
  · rintro ⟨warning, onFirst, onSecond⟩
    rcases onFirst with ⟨text, isText, rfl⟩ | ⟨service, isSet, idle, rfl⟩ <;>
      rcases onSecond with ⟨other, isOther, same⟩ | ⟨other, isOther, otherIdle, same⟩ <;>
      obtain ⟨sameCode, sameText, sameLocation⟩ := Warning.mk.injEq .. ▸ same
    · have hasConflict := (isSome_conflictText_iff first.item).mp (isText ▸ rfl)
      refine ⟨Option.some.inj sameLocation, Or.inl ⟨hasConflict, ?_⟩⟩
      rw [← conflictText_eq_iff hasConflict, isText, isOther, sameText]
    · exact absurd sameCode (by decide)
    · exact absurd sameCode (by decide)
    · exact ⟨Option.some.inj sameLocation, Or.inr
        ⟨service, isSet, other, isOther, idle, otherIdle, idleParameters_eq_iff.mp sameText⟩⟩

/-- The remarks at some places are all different exactly if no two of the places collide. -/
theorem nodup_remarks_iff (places : List Site) :
    (remarks places).Nodup ↔ places.Pairwise fun first second => ¬ first.Collides second := by
  have disjoint_iff (first second : Site) :
      List.Disjoint (first.item.remarks first.location) (second.item.remarks second.location) ↔
        ¬ first.Collides second := by
    rw [collides_iff, List.disjoint_left]
    simp only [not_exists, not_and]
  rw [remarks, List.nodup_flatMap, and_iff_right fun site _ => Item.nodup_remarks _ _]
  exact ⟨List.Pairwise.imp (disjoint_iff _ _).mp, List.Pairwise.imp (disjoint_iff _ _).mpr⟩

/-- As many remarks are kept as there are codes at the places exactly if no two places collide. -/
theorem length_collect_remarks_iff (places : List Site) :
    (Warning.collect [] (remarks places)).length = (codes places).length ↔
      places.Pairwise fun first second => ¬ first.Collides second := by
  rw [← length_remarks, Warning.length_collect_eq_iff, nodup_remarks_iff]

/-- Places that are apart do not collide. -/
theorem pairwise_not_collides {places : List Site} (apart : places.Pairwise Apart) :
    places.Pairwise fun first second => ¬ first.Collides second :=
  apart.imp fun isApart collides => isApart collides.1

end Item.Site

/-! ## Places of a document -/

namespace Item

/-- The places in the tree of an item that are reached. -/
def reachedSites (location : String) (item : Item) : List Site :=
  (item.sites location []).filter fun site => site.IsReached

/-- The name of an item and the names below it are plain. -/
def HasPlainNames (item : String × Item) : Prop :=
  ¬ Text.HasPart "children" item.1 ∧ item.2.PlainBelow

/-- The reached places of several items are apart if the names are distinct and plain. -/
theorem pairwise_apart_reachedSites (top : String) {items : List (String × Item)}
    (distinct : Fields.Distinct items) (distinctBelow : ∀ item ∈ items, item.2.DistinctBelow)
    (plain : ∀ item ∈ items, HasPlainNames item) :
    (items.flatMap fun item => item.2.reachedSites (top ++ item.1)).Pairwise Site.Apart := by
  have apart := pairwise_apart_flatMap top [] distinct
    (fun item member => (plain item member).1) fun item member =>
      pairwise_apart_sites (distinctBelow item member) (plain item member).2 _ _
  have isFiltered := apart.filter fun site => decide site.IsReached
  rwa [List.filter_flatMap] at isFiltered

/-- An item that is read from data with distinct names has distinct names below it. -/
theorem distinctBelow_of_normalize {strict : Bool} {location : String} {raw : Data} {item : Item}
    (distinct : raw.Distinct) (isItem : normalize strict location raw = .ok item) :
    item.DistinctBelow := by
  obtain ⟨isItem, isRead⟩ := normalize_eq_ok_iff.mp isItem
  exact (conserves_of_read distinct isItem isRead).distinctBelow distinct

end Item

/-- No object of the document has two members of one name. -/
structure Outline.DistinctNames (outline : Outline) : Prop where
  menus : Fields.Distinct outline.menus
  items : ∀ menu ∈ outline.menus, (Data.object menu.2.items).Distinct
  breadcrumbs : (Data.object outline.breadcrumbs).Distinct

namespace Menu

variable {settings : Settings} {menus : List (String × List (String × Item))}

/-- The items of menus are read in one way. -/
theorem eq_of_areItemsOf {written : Fields Menu} {others : List (String × List (String × Item))}
    (areItems : List.Forall₂ (AreItemsOf settings) written menus)
    (areOthers : List.Forall₂ (AreItemsOf settings) written others) : menus = others := by
  refine List.right_unique_forall₂' ?_ areItems areOthers
  rintro menu first second ⟨isFirst, areFirst⟩ ⟨isSecond, areSecond⟩
  refine Prod.ext (isFirst.trans isSecond.symm) (List.right_unique_forall₂' ?_ areFirst areSecond)
  rintro raw item other ⟨isName, isRead⟩ ⟨isOther, isReadToo⟩
  exact Prod.ext (isName.trans isOther.symm) (Except.ok.inj (isRead.symm.trans isReadToo))

/-- The reached places of the items of menus. -/
def sites (menus : List (String × List (String × Item))) : List Item.Site :=
  menus.flatMap fun menu => menu.2.flatMap fun item =>
    item.2.reachedSites ("menus." ++ menu.1 ++ ".items." ++ item.1)

/-- The name of a menu and the names in it are plain. -/
def HasPlainNames (menu : String × List (String × Item)) : Prop :=
  ¬ Text.HasPart "items" menu.1 ∧ ∀ item ∈ menu.2, Item.HasPlainNames item

/-- What is remarked about menus are the remarks at the places of their items. -/
theorem remarks_sites (menus : List (String × List (String × Item))) :
    Item.Site.remarks (sites menus) = menus.flatMap itemRemarks := by
  simp only [Item.Site.remarks, sites, List.flatMap_assoc]
  rfl

/-- The places of menus with different plain names are apart. -/
theorem apart_of_mem_sites {first second : String × List (String × Item)}
    (different : first.1 ≠ second.1) (plainFirst : ¬ Text.HasPart "items" first.1)
    (plainSecond : ¬ Text.HasPart "items" second.1) {site other : Item.Site}
    (inFirst : site ∈ sites [first]) (inSecond : other ∈ sites [second]) : site.Apart other := by
  have tail {menu : String × List (String × Item)} {site : Item.Site}
      (inMenu : site ∈ sites [menu]) :
      ∃ rest, Text.IsTail "items" rest ∧ site.location = "menus." ++ (menu.1 ++ rest) := by
    rw [sites, List.flatMap_singleton] at inMenu
    obtain ⟨item, -, inItem⟩ := List.mem_flatMap.mp inMenu
    obtain ⟨rest, isBelow⟩ := Item.location_of_mem_sites (List.mem_filter.mp inItem).1
    refine ⟨".items." ++ (item.1 ++ rest), Or.inr ⟨item.1 ++ rest, rfl⟩, ?_⟩
    simp only [isBelow, String.append_assoc]
  obtain ⟨firstRest, firstTail, isFirst⟩ := tail inFirst
  obtain ⟨secondRest, secondTail, isSecond⟩ := tail inSecond
  rw [Item.Site.Apart, isFirst, isSecond, ne_eq, String.append_right_inj]
  intro same
  exact different
    (Text.eq_of_append_tail (by decide) plainFirst plainSecond firstTail secondTail same)

/-- The places of the items that have been read of menus are apart if all names are plain. -/
theorem pairwise_apart_sites {written : Fields Menu} (distinct : Fields.Distinct written)
    (distinctItems : ∀ menu ∈ written, (Data.object menu.2.items).Distinct)
    (areItems : List.Forall₂ (AreItemsOf settings) written menus)
    (plain : ∀ menu ∈ menus, HasPlainNames menu) : (sites menus).Pairwise Item.Site.Apart := by
  rw [sites, List.pairwise_flatMap]
  constructor
  · intro menu member
    obtain ⟨raw, isWritten, -, areRead⟩ := exists_mem_of_forall₂_right areItems member
    obtain ⟨distinctNames, distinctRaw⟩ :=
      Data.distinct_object_iff.mp (distinctItems raw isWritten)
    apply Item.pairwise_apart_reachedSites _ _ _ (plain menu member).2
    · rwa [Fields.Distinct, Fields.names_eq_of_forall₂ (fun _ _ => And.left) areRead]
    · intro item isItem
      obtain ⟨entry, inItems, -, isRead⟩ := exists_mem_of_forall₂_right areRead isItem
      exact Item.distinctBelow_of_normalize (distinctRaw entry inItems) isRead
  · have distinctMenus : Fields.Distinct menus := by
      rwa [Fields.Distinct, Fields.names_eq_of_forall₂ (fun _ _ => And.left) areItems]
    refine (List.pairwise_map.mp distinctMenus).imp_of_mem ?_
    intro first second isFirst isSecond different site inFirst other inSecond
    apply apart_of_mem_sites different (plain first isFirst).1 (plain second isSecond).1
    · rwa [sites, List.flatMap_singleton]
    · rwa [sites, List.flatMap_singleton]

end Menu

namespace Trail

variable {settings : Settings} {breadcrumbs : Fields Breadcrumb}

/-- The reached places of breadcrumbs, each of which counts once. -/
def sites (breadcrumbs : Fields Breadcrumb) : List Item.Site :=
  breadcrumbs.flatMap fun entry => entry.2.item.reachedSites ("breadcrumbs." ++ entry.1)

/-- The walks from all breadcrumbs are remarked upon like the breadcrumbs, copies apart. -/
theorem mem_walkRemarks_iff {walks : List (List (String × Breadcrumb))}
    (areWalks : List.Forall₂ (IsWalkFrom breadcrumbs) breadcrumbs walks) (warning : Warning) :
    warning ∈ walks.flatMap walkRemarks ↔ warning ∈ Item.Site.remarks (sites breadcrumbs) := by
  have asWalk : Item.Site.remarks (sites breadcrumbs) = walkRemarks breadcrumbs := by
    simp only [Item.Site.remarks, sites, List.flatMap_assoc]
    rfl
  rw [asWalk]
  simp only [walkRemarks, List.mem_flatMap]
  constructor
  · rintro ⟨walk, isWalk, step, onWalk, isRemark⟩
    obtain ⟨entry, -, -, ascent, -⟩ := exists_mem_of_forall₂_right areWalks isWalk
    exact ⟨step, Fields.mem_of_get?_eq_some (ascent.entries step onWalk), isRemark⟩
  · rintro ⟨entry, member, isRemark⟩
    obtain ⟨walk, isWalk, isHead, -⟩ := exists_mem_of_forall₂_left areWalks member
    exact ⟨walk, isWalk, entry, List.mem_of_head? isHead, isRemark⟩

/-- The places of the breadcrumbs that have been read are apart if all names are plain. -/
theorem pairwise_apart_sites {raw : Fields Data} (distinct : (Data.object raw).Distinct)
    (areBreadcrumbs : List.Forall₂ (Plan.IsBreadcrumbOf settings) raw breadcrumbs)
    (plain : ∀ entry ∈ breadcrumbs, Item.HasPlainNames (entry.1, entry.2.item)) :
    (sites breadcrumbs).Pairwise Item.Site.Apart := by
  obtain ⟨distinctNames, distinctRaw⟩ := Data.distinct_object_iff.mp distinct
  have sameNames : Fields.names (breadcrumbs.map fun entry => (entry.1, entry.2.item)) =
      Fields.names breadcrumbs := by
    rw [Fields.names, Fields.names, List.map_map]
    rfl
  have distinctItems : Fields.Distinct (breadcrumbs.map fun entry => (entry.1, entry.2.item)) := by
    rwa [Fields.Distinct, sameNames, Plan.names_of_isBreadcrumbOf areBreadcrumbs]
  have apart := Item.pairwise_apart_reachedSites "breadcrumbs." distinctItems
  rw [List.forall_mem_map, List.forall_mem_map, List.flatMap_map] at apart
  refine apart ?_ plain
  intro entry member
  obtain ⟨written, isWritten, -, isRead⟩ := exists_mem_of_forall₂_right areBreadcrumbs member
  exact Item.distinctBelow_of_normalize (Breadcrumb.distinct_withoutParent
    (distinctRaw written isWritten)) (Breadcrumb.normalize_eq_ok_iff.mp isRead).2.1

end Trail

namespace Outline

/-- A document in which an item and the child of another one are at the same location. -/
def dottedName : Outline where
  menus := [("main", { items := [
    ("a", .object [("children", .object [("b", .object [
      ("service", .string "app.menu"), ("expression", .string "build()")])])]),
    ("a.children.b", .object [
      ("service", .string "app.menu"), ("expression", .string "build()")])] })]

/-- Its items. -/
def dottedMenus : List (String × List (String × Item)) :=
  let mixed : Item := {
    service := some ⟨"app.menu", none, none⟩
    expression := some "build()" }
  [("main", [("a", { children := [("b", mixed)] }), ("a.children.b", mixed)])]

/-- The items of the document with much to remark. -/
def muchMenus : List (String × List (String × Item)) :=
  [("main", [
    ("mixed", {
      service := some ⟨"app.mixed", none, none⟩
      expression := some "build()"
      children := [("unseen", {
        service := some ⟨"app.unseen", none, none⟩
        expression := some "build()" })] }),
    ("group", {
      expression := some ""
      children := [("seen", {
        service := some ⟨"app.seen", none, some (.array [])⟩
        expression := some "build()" })] })])]

/-- The warnings of a compilation are first those on menus and then those on breadcrumbs. There are
as many on menus as there are codes at the reached places of their items exactly if no two of these
places collide; so it is with the breadcrumbs, each of which counts once, however many walks pass
it. No places collide if no menu has the part `items` in its name and no item, child or breadcrumb
has the part `children`. -/
theorem compile_warnings_counted (settings : Settings) (outline : Outline) (compiled : Compiled)
    (distinct : outline.DistinctNames) (succeeded : outline.compile settings = .ok compiled) :
    ∃ menus breadcrumbs onMenus onBreadcrumbs,
      List.Forall₂ (Menu.AreItemsOf settings) outline.menus menus ∧
      List.Forall₂ (Plan.IsBreadcrumbOf settings) outline.breadcrumbs breadcrumbs ∧
      compiled.warnings = onMenus ++ onBreadcrumbs ∧
      (∀ warning ∈ onMenus, ∃ rest, warning.location = some ("menus." ++ rest)) ∧
      (∀ warning ∈ onBreadcrumbs, ∃ rest, warning.location = some ("breadcrumbs." ++ rest)) ∧
      (onMenus.length = (Item.Site.codes (Menu.sites menus)).length ↔
        (Menu.sites menus).Pairwise fun first second => ¬ first.Collides second) ∧
      (onBreadcrumbs.length = (Item.Site.codes (Trail.sites breadcrumbs)).length ↔
        (Trail.sites breadcrumbs).Pairwise fun first second => ¬ first.Collides second) ∧
      ((∀ menu ∈ menus, Menu.HasPlainNames menu) →
        onMenus.length = (Item.Site.codes (Menu.sites menus)).length) ∧
      ((∀ entry ∈ breadcrumbs, Item.HasPlainNames (entry.1, entry.2.item)) →
        onBreadcrumbs.length = (Item.Site.codes (Trail.sites breadcrumbs)).length) := by
  obtain ⟨entries, breadcrumbs, trails, isMenus, isRead, isLinked, -, isWarnings⟩ :=
    compile_eq_ok_iff.mp succeeded
  obtain ⟨menus, areItems, raisedMenus⟩ := Plan.raised_menuEntries isMenus
  have areBreadcrumbs := Plan.readBreadcrumbs_eq_ok_iff.mp isRead
  have distinctRead : Fields.Distinct breadcrumbs := by
    rw [Fields.Distinct, Plan.names_of_isBreadcrumbOf areBreadcrumbs]
    exact (Data.distinct_object_iff.mp distinct.breadcrumbs).1
  have nullFree : ∀ entry ∈ breadcrumbs, entry.2.item.NullFree := by
    intro entry member
    obtain ⟨raw, -, -, isBreadcrumb⟩ := exists_mem_of_forall₂_right areBreadcrumbs member
    exact Breadcrumb.nullFree_of_normalize isBreadcrumb
  obtain ⟨walks, areWalks, raisedWalks⟩ := Trail.raised_linkAll distinctRead nullFree isLinked
  rw [raisedMenus, raisedWalks] at isWarnings
  have countMenus := Item.Site.length_collect_remarks_iff (Menu.sites menus)
  have countWalks := Item.Site.length_collect_remarks_iff (Trail.sites breadcrumbs)
  rw [Menu.remarks_sites] at countMenus
  rw [← Warning.length_collect_congr (Trail.mem_walkRemarks_iff areWalks)] at countWalks
  refine ⟨menus, breadcrumbs, _, _, areItems, areBreadcrumbs, isWarnings, ?_, ?_, countMenus,
    countWalks, ?_, ?_⟩
  · intro warning member
    obtain ⟨menu, -, isRemark⟩ :=
      List.mem_flatMap.mp ((Warning.mem_collect.mp member).resolve_left List.not_mem_nil)
    exact Menu.location_of_mem_itemRemarks isRemark
  · intro warning member
    obtain ⟨walk, -, isRemark⟩ :=
      List.mem_flatMap.mp ((Warning.mem_collect.mp member).resolve_left List.not_mem_nil)
    exact Trail.location_of_mem_walkRemarks isRemark
  · intro plain
    exact countMenus.mpr (Item.Site.pairwise_not_collides
      (Menu.pairwise_apart_sites distinct.menus distinct.items areItems plain))
  · intro plain
    exact countWalks.mpr (Item.Site.pairwise_not_collides
      (Trail.pairwise_apart_sites distinct.breadcrumbs areBreadcrumbs plain))

/-- The names in the document with much to remark are plain, so nothing is lost: three warnings on
the menu, and one on the breadcrumb that two walks pass. -/
theorem muchToRemark_warnings_counted :
    muchToRemark.DistinctNames ∧ ∃ compiled onMenus onBreadcrumbs,
      muchToRemark.compile {} = .ok compiled ∧ compiled.warnings = onMenus ++ onBreadcrumbs ∧
        onMenus.length = 3 ∧ onBreadcrumbs.length = 1 := by
  have distinct : muchToRemark.DistinctNames := by
    constructor
    · decide
    · simp [muchToRemark, Data.Distinct, Data.DistinctMembers, Data.DistinctItems, Fields.Distinct]
    · simp [muchToRemark, Data.Distinct, Data.DistinctMembers, Fields.Distinct]
  have plain : ∀ menu ∈ muchMenus, Menu.HasPlainNames menu := by
    refine List.forall_mem_singleton.mpr ⟨by decide +kernel, List.forall_mem_cons.mpr
      ⟨⟨by decide +kernel, ?_⟩, List.forall_mem_singleton.mpr ⟨by decide +kernel, ?_⟩⟩⟩
    · exact ⟨by decide +kernel, List.forall_mem_singleton.mpr (Item.plainBelow_of_leaf rfl)⟩
    · exact ⟨by decide +kernel, List.forall_mem_singleton.mpr (Item.plainBelow_of_leaf rfl)⟩
  have areMuch : List.Forall₂ (Menu.AreItemsOf {}) muchToRemark.menus muchMenus := by
    refine List.Forall₂.cons ⟨rfl, ?_⟩ List.Forall₂.nil
    refine List.Forall₂.cons ⟨rfl, ?_⟩ (List.Forall₂.cons ⟨rfl, ?_⟩ List.Forall₂.nil)
    · cbv
    · cbv
  have succeeds : (muchToRemark.compile {}).map (fun compiled => compiled.warnings.length) =
      .ok 4 := by cbv
  obtain ⟨compiled, succeeded, isLength⟩ := map_eq_ok_iff.mp succeeds
  obtain ⟨menus, breadcrumbs, onMenus, onBreadcrumbs, areItems, -, isWarnings, -, -, -, -,
    countMenus, -⟩ := compile_warnings_counted {} muchToRemark compiled distinct succeeded
  obtain rfl := Menu.eq_of_areItemsOf areMuch areItems
  have three : onMenus.length = 3 := (countMenus plain).trans (by decide +kernel)
  rw [isWarnings, List.length_append, three] at isLength
  exact ⟨distinct, compiled, onMenus, onBreadcrumbs, succeeded, isWarnings, three,
    Nat.add_left_cancel isLength⟩

/-- One of two warnings is lost: the items are at one location, and the same keys are in conflict.
-/
theorem dottedName_warning_lost :
    dottedName.DistinctNames ∧
      List.Forall₂ (Menu.AreItemsOf {}) dottedName.menus dottedMenus ∧
      (Item.Site.codes (Menu.sites dottedMenus)).length = 2 ∧
      ∃ compiled, dottedName.compile {} = .ok compiled ∧ compiled.warnings.length = 1 := by
  refine ⟨⟨?_, ?_, ?_⟩, ?_, ?_, ?_⟩
  · decide
  · simp [dottedName, Data.Distinct, Data.DistinctMembers, Fields.Distinct]
  · simp [dottedName, Data.Distinct, Data.DistinctMembers, Fields.Distinct]
  · refine List.Forall₂.cons ⟨rfl, ?_⟩ List.Forall₂.nil
    refine List.Forall₂.cons ⟨rfl, ?_⟩ (List.Forall₂.cons ⟨rfl, ?_⟩ List.Forall₂.nil)
    · cbv
    · cbv
  · decide +kernel
  · have oneWarning : (dottedName.compile {}).map (fun compiled => compiled.warnings.length) =
        .ok 1 := by cbv
    exact map_eq_ok_iff.mp oneWarning

end Outline

end MenuPlan

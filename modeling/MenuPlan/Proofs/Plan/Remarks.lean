/-
# The remarks that come with a plan

A successful compilation has read every item of the menus and every breadcrumb, and each breadcrumb
is walked from to the top. What it remarks is then no more than the remarks at the reached places of
these items: first along the menus, then along the walks, where an ancestor comes up once for every
walk that passes it. Each of the two halves keeps the first of equal remarks. No remark is in both,
because every remark says where it was made.
-/

import MenuPlan.Proofs.Item.Remarks
import MenuPlan.Proofs.Plan.Entries
import MenuPlan.Proofs.Trail.Locality

namespace MenuPlan

namespace Warning

/-- Collecting keeps the first of equal warnings and goes on after those that were there before. -/
theorem collect_eq_append_eraseDups (known raised : List Warning) :
    collect known raised =
      known ++ (raised.filter fun warning => warning ∉ known).eraseDups := by
  induction raised generalizing known with
  | nil => simp [collect]
  | cons first rest ih =>
      rw [collect, List.foldl_cons, ← collect, ih]
      by_cases present : first ∈ known
      · rw [if_pos present, List.filter_cons_of_neg (by simpa using present)]
      · rw [if_neg present, List.filter_cons_of_pos (by simpa using present), List.eraseDups_cons,
          List.filter_filter, List.append_assoc, List.singleton_append]
        congr 3
        apply List.filter_congr
        intro warning _
        simp [and_comm, Bool.beq_eq_decide_eq]

/-- What is collected from nothing are the warnings raised, each at its first occurrence. -/
theorem collect_nil_eq_eraseDups (raised : List Warning) :
    collect [] raised = raised.eraseDups := by
  rw [collect_eq_append_eraseDups, List.nil_append, List.filter_eq_self.mpr]
  intro warning _
  exact decide_eq_true List.not_mem_nil

/-- Collecting makes no copies. -/
theorem nodup_collect {known : List Warning} (nodup : known.Nodup) (raised : List Warning) :
    (collect known raised).Nodup := by
  induction raised generalizing known with
  | nil => exact nodup
  | cons first rest ih =>
      rw [collect, List.foldl_cons, ← collect]
      by_cases present : first ∈ known
      · rw [if_pos present]
        exact ih nodup
      · rw [if_neg present]
        exact ih (List.nodup_append_comm.mp (List.nodup_cons.mpr ⟨present, nodup⟩))

end Warning

namespace Item

/-- Every place of a tree is at the location of the tree or below it. -/
theorem location_of_mem_sites {location : String} {above : List Item} {item : Item} {site : Site}
    (member : site ∈ sites location above item) : ∃ rest, site.location = location ++ rest := by
  induction item using treeInduction generalizing location above with
  | step item ih =>
    rw [sites_eq_cons, childSites_eq_flatMap] at member
    rcases List.mem_cons.mp member with rfl | below
    · exact ⟨"", (String.append_empty).symm⟩
    · obtain ⟨entry, isChild, inChild⟩ := List.mem_flatMap.mp below
      obtain ⟨rest, isBelow⟩ := ih entry isChild inChild
      refine ⟨".children." ++ entry.1 ++ rest, ?_⟩
      simp only [isBelow, String.append_assoc]

/-- Every remark is made at the place of which it is the remark. -/
theorem location_of_mem_remarks {location : String} {item : Item} {warning : Warning}
    (member : warning ∈ item.remarks location) : warning.location = some location := by
  rcases List.mem_append.mp member with onKeys | onParameters
  · obtain ⟨text, -, rfl⟩ := List.mem_map.mp onKeys
    rfl
  · obtain ⟨service, -, rfl⟩ := List.mem_map.mp onParameters
    rfl

/-- Every remark on a tree is made at the location of the tree or below it. -/
theorem location_of_mem_treeRemarks {location : String} {item : Item} {warning : Warning}
    (member : warning ∈ item.treeRemarks location) :
    ∃ rest, warning.location = some (location ++ rest) := by
  obtain ⟨site, inSites, isRemark⟩ := List.mem_flatMap.mp member
  obtain ⟨rest, isBelow⟩ := location_of_mem_sites (List.mem_filter.mp inSites).1
  exact ⟨rest, by rw [location_of_mem_remarks isRemark, isBelow]⟩

/-- The remarks on an item without null are those at its reached places. -/
theorem warnings_eq_treeRemarks {item : Item} (nullFree : item.NullFree) (location : String) :
    warnings location item = item.treeRemarks location :=
  warnings_eq_flatMap_sites nullFree (List.forall_mem_nil _) location

end Item

variable {settings : Settings}

/-- An item that has been read from the data under its name in a menu. -/
def Menu.IsItemOf (settings : Settings) (menu : String) (raw : String × Data)
    (read : String × Item) : Prop :=
  read.1 = raw.1 ∧
    Item.normalize settings.strictItems ("menus." ++ menu ++ ".items." ++ raw.1) raw.2 =
      .ok read.2

/-- The items that have been read from a menu. -/
def Menu.AreItemsOf (settings : Settings) (menu : String × Menu)
    (read : String × List (String × Item)) : Prop :=
  read.1 = menu.1 ∧ List.Forall₂ (IsItemOf settings menu.1) menu.2.items read.2

/-- The remarks on the items of a menu. -/
def Menu.itemRemarks (menu : String × List (String × Item)) : List Warning :=
  menu.2.flatMap fun item => item.2.treeRemarks ("menus." ++ menu.1 ++ ".items." ++ item.1)

/-- The remarks on the items of a menu are made below the menus of the document. -/
theorem Menu.location_of_mem_itemRemarks {menu : String × List (String × Item)} {warning : Warning}
    (member : warning ∈ itemRemarks menu) : ∃ rest, warning.location = some ("menus." ++ rest) := by
  obtain ⟨item, -, isRemark⟩ := List.mem_flatMap.mp member
  obtain ⟨rest, isBelow⟩ := Item.location_of_mem_treeRemarks isRemark
  exact ⟨menu.1 ++ ".items." ++ item.1 ++ rest, by simp only [isBelow, String.append_assoc]⟩

/-- A menu that succeeds has read its items and remarks on each. -/
theorem Menu.raised_itemCalls {menu : String} {items : List (String × Data)} {calls : List Call}
    (succeeded : (itemCalls settings menu items).result = .ok calls) :
    ∃ read, List.Forall₂ (IsItemOf settings menu) items read ∧
      (itemCalls settings menu items).raised = itemRemarks (menu, read) := by
  induction items generalizing calls with
  | nil => exact ⟨[], List.Forall₂.nil, rfl⟩
  | cons raw rest ih =>
      obtain ⟨name, value⟩ := raw
      rw [itemCalls] at succeeded ⊢
      cases isItem : Item.normalize settings.strictItems (itemLocation menu name) value with
      | error error =>
          rw [isItem] at succeeded
          cases succeeded
      | ok item =>
          rw [isItem] at succeeded
          obtain ⟨later, isLater, -⟩ := map_eq_ok_iff.mp succeeded
          obtain ⟨read, isRead, isRaised⟩ := ih isLater
          refine ⟨(name, item) :: read, List.Forall₂.cons ⟨rfl, isItem⟩ isRead, ?_⟩
          dsimp only
          rw [isRaised, Item.warnings_eq_treeRemarks (Item.NullFree.of_normalize isItem)]
          rfl

/-- Menus that succeed have read their items and remark on those of each menu. -/
theorem Plan.raised_menuEntries {menus : Fields Menu} {entries : Fields Instruction}
    (succeeded : (menuEntries settings menus).result = .ok entries) :
    ∃ read, List.Forall₂ (Menu.AreItemsOf settings) menus read ∧
      (menuEntries settings menus).raised = read.flatMap Menu.itemRemarks := by
  induction menus generalizing entries with
  | nil => exact ⟨[], List.Forall₂.nil, rfl⟩
  | cons menu rest ih =>
      obtain ⟨name, menu⟩ := menu
      rw [menuEntries] at succeeded ⊢
      cases root : (menu.instruction settings name).result with
      | error error =>
          rw [root] at succeeded
          cases succeeded
      | ok instruction =>
          rw [root] at succeeded
          obtain ⟨calls, isCalls, -⟩ := map_eq_ok_iff.mp root
          obtain ⟨items, areItems, isRaised⟩ := Menu.raised_itemCalls isCalls
          obtain ⟨later, isLater, -⟩ := map_eq_ok_iff.mp succeeded
          obtain ⟨read, isRead, isRaisedLater⟩ := ih isLater
          refine ⟨(name, items) :: read, List.Forall₂.cons ⟨rfl, areItems⟩ isRead, ?_⟩
          dsimp only
          rw [isRaisedLater, List.flatMap_cons, ← isRaised]
          rfl

namespace Trail

/-- A walk from an entry of a map to the top. -/
def IsWalkFrom (all : Fields Breadcrumb) (entry : String × Breadcrumb)
    (walk : List (String × Breadcrumb)) : Prop :=
  walk.head? = some entry ∧ Ascent all walk ∧ Ending all walk none

/-- The remarks on the breadcrumbs of a walk, the first one first. -/
def walkRemarks (walk : List (String × Breadcrumb)) : List Warning :=
  walk.flatMap fun step => step.2.item.treeRemarks ("breadcrumbs." ++ step.1)

/-- The remarks on a walk are made below the breadcrumbs of the document. -/
theorem location_of_mem_walkRemarks {walk : List (String × Breadcrumb)} {warning : Warning}
    (member : warning ∈ walkRemarks walk) :
    ∃ rest, warning.location = some ("breadcrumbs." ++ rest) := by
  obtain ⟨step, -, isRemark⟩ := List.mem_flatMap.mp member
  obtain ⟨rest, isBelow⟩ := Item.location_of_mem_treeRemarks isRemark
  exact ⟨step.1 ++ rest, by simp only [isBelow, String.append_assoc]⟩

/-- The remarks on a path are those at reached places if no item on it has a null. -/
theorem pathWarnings_eq_walkRemarks {path : List (String × Breadcrumb)}
    (nullFree : ∀ step ∈ path, step.2.item.NullFree) : pathWarnings path = walkRemarks path := by
  apply List.flatMap_congr
  intro step member
  exact Item.warnings_eq_treeRemarks (nullFree step member) _

/-- A map that links is walked from every entry, and remarked upon along the walks. -/
theorem raised_linkAll {all : Fields Breadcrumb} {trails : Fields Instruction}
    (distinct : Fields.Distinct all) (nullFree : ∀ entry ∈ all, entry.2.item.NullFree)
    (succeeded : (linkAll settings all).result = .ok trails) :
    ∃ walks, List.Forall₂ (IsWalkFrom all) all walks ∧
      (linkAll settings all).raised = walks.flatMap walkRemarks := by
  have clear := ((linkAll_eq_ok_iff trails).mp succeeded).1
  have isWalk : ∀ entry ∈ all, IsWalkFrom all entry (climbFrom all entry.1 entry.2).path := by
    intro entry member
    have found := Fields.get?_eq_some_of_mem distinct member
    have reaches := (clear_self_iff_reachesTop distinct).mp clear entry member
    exact ⟨climb_head? _ _ _ _ _, climbFrom_ascent found,
      climbFrom_ending_of_reachesTop found reaches⟩
  refine ⟨all.map fun entry => (climbFrom all entry.1 entry.2).path, ?_, ?_⟩
  · rw [List.forall₂_map_right_iff, List.forall₂_same]
    exact isWalk
  · rw [linkAll, linkEntries_raised_of_clear clear, List.flatMap_map]
    apply List.flatMap_congr
    intro entry member
    apply pathWarnings_eq_walkRemarks
    intro step onPath
    have inMap := (isWalk entry member).2.1.entries step onPath
    exact nullFree step (Fields.mem_of_get?_eq_some inMap)

end Trail

namespace Outline

/-- No remark on a menu is one on a walk: their locations begin with different letters. -/
theorem disjoint_remarks {menus : List (String × List (String × Item))}
    {walks : List (List (String × Breadcrumb))} :
    ∀ warning ∈ menus.flatMap Menu.itemRemarks, warning ∉ walks.flatMap Trail.walkRemarks := by
  intro warning onMenu onWalk
  obtain ⟨menu, -, ofMenu⟩ := List.mem_flatMap.mp onMenu
  obtain ⟨walk, -, ofWalk⟩ := List.mem_flatMap.mp onWalk
  obtain ⟨restMenu, isMenu⟩ := Menu.location_of_mem_itemRemarks ofMenu
  obtain ⟨restWalk, isWalk⟩ := Trail.location_of_mem_walkRemarks ofWalk
  have letters : ("menus." ++ restMenu).toList[0]? = ("breadcrumbs." ++ restWalk).toList[0]? := by
    rw [Option.some.inj (isMenu.symm.trans isWalk)]
  simp [String.toList_append] at letters

/-- A document with much to remark: a conflict above another one that is not reached, a conflict
below an item, and idle parameters on the top of two trails. -/
def muchToRemark : Outline where
  menus := [("main", { items := [
    ("mixed", .object [
      ("service", .string "app.mixed"), ("expression", .string "build()"),
      ("children", .object [("unseen", .object [
        ("service", .string "app.unseen"), ("expression", .string "build()")])])]),
    ("group", .object [("expression", .string ""), ("children", .object [
      ("seen", .object [
        ("service", .object [("id", .string "app.seen"), ("parameters", .array [])]),
        ("expression", .string "build()")])])])] })]
  breadcrumbs := [
    ("leaf", .object [("parent", .string "top")]),
    ("top", .object [("service", .object [
      ("id", .string "app.top"), ("method", .string ""), ("parameters", .bool false)])])]

/-- The warnings of a compilation are the remarks at the reached places of the items, each kept at
its first occurrence: first those of the menus, in the order of the document, and then those of the
breadcrumbs, along the walk from each entry to the top. No two of them are the same. -/
theorem compile_warnings_are_remarks (settings : Settings) (outline : Outline)
    (compiled : Compiled) (distinct : Fields.Distinct outline.breadcrumbs)
    (succeeded : outline.compile settings = .ok compiled) :
    (∃ menus breadcrumbs walks,
      List.Forall₂ (Menu.AreItemsOf settings) outline.menus menus ∧
      List.Forall₂ (Plan.IsBreadcrumbOf settings) outline.breadcrumbs breadcrumbs ∧
      List.Forall₂ (Trail.IsWalkFrom breadcrumbs) breadcrumbs walks ∧
      compiled.warnings =
        (menus.flatMap fun menu => menu.2.flatMap fun item =>
          item.2.treeRemarks ("menus." ++ menu.1 ++ ".items." ++ item.1)).eraseDups ++
        (walks.flatMap fun walk => walk.flatMap fun step =>
          step.2.item.treeRemarks ("breadcrumbs." ++ step.1)).eraseDups) ∧
      compiled.warnings.Nodup := by
  obtain ⟨entries, breadcrumbs, trails, isMenus, isRead, isLinked, -, isWarnings⟩ :=
    compile_eq_ok_iff.mp succeeded
  obtain ⟨menus, areItems, raisedMenus⟩ := Plan.raised_menuEntries isMenus
  have areBreadcrumbs := Plan.readBreadcrumbs_eq_ok_iff.mp isRead
  have distinctRead : Fields.Distinct breadcrumbs := by
    rwa [Fields.Distinct, Plan.names_of_isBreadcrumbOf areBreadcrumbs]
  have nullFree : ∀ entry ∈ breadcrumbs, entry.2.item.NullFree := by
    intro entry member
    obtain ⟨raw, -, -, isBreadcrumb⟩ := exists_mem_of_forall₂_right areBreadcrumbs member
    exact Breadcrumb.nullFree_of_normalize isBreadcrumb
  obtain ⟨walks, areWalks, raisedWalks⟩ := Trail.raised_linkAll distinctRead nullFree isLinked
  rw [raisedMenus, raisedWalks] at isWarnings
  refine ⟨⟨menus, breadcrumbs, walks, areItems, areBreadcrumbs, areWalks, ?_⟩, ?_⟩
  · rw [isWarnings, Warning.collect_nil_eq_eraseDups, Warning.collect_nil_eq_eraseDups]
    rfl
  · rw [isWarnings]
    apply List.nodup_append.mpr
      ⟨Warning.nodup_collect List.nodup_nil _, Warning.nodup_collect List.nodup_nil _, _⟩
    rintro warning onMenu _ onWalk rfl
    rw [Warning.mem_collect] at onMenu onWalk
    exact disjoint_remarks warning (onMenu.resolve_left List.not_mem_nil)
      (onWalk.resolve_left List.not_mem_nil)

/-- What is below a service goes without remark, and the top of two trails is remarked upon once. -/
theorem muchToRemark_warnings_are_remarks :
    Fields.Distinct muchToRemark.breadcrumbs ∧
      ∃ compiled, muchToRemark.compile {} = .ok compiled ∧ compiled.warnings.Nodup ∧
        compiled.warnings.map (fun warning => (warning.code, warning.location)) = [
          ("W2030", some "menus.main.items.mixed"),
          ("W2030", some "menus.main.items.group.children.seen"),
          ("W2031", some "menus.main.items.group.children.seen"),
          ("W2031", some "breadcrumbs.top")] := by
  have distinct : Fields.Distinct muchToRemark.breadcrumbs := by decide
  have isWarnings : (muchToRemark.compile {}).map (fun compiled =>
      compiled.warnings.map fun warning => (warning.code, warning.location)) = .ok [
        ("W2030", some "menus.main.items.mixed"),
        ("W2030", some "menus.main.items.group.children.seen"),
        ("W2031", some "menus.main.items.group.children.seen"),
        ("W2031", some "breadcrumbs.top")] := by cbv
  cases succeeded : muchToRemark.compile {} with
  | error error =>
      rw [succeeded] at isWarnings
      cases isWarnings
  | ok compiled =>
      rw [succeeded] at isWarnings
      have remarks := compile_warnings_are_remarks {} muchToRemark compiled distinct succeeded
      exact ⟨distinct, compiled, rfl, remarks.2, Except.ok.inj isWarnings⟩

end Outline

end MenuPlan

/-
# Which error a compilation reports

A document can be wrong in many places at once, and a compilation reports one error. Its stages are
passes over lists, each of which stops at the first step that fails: the items of a menu, the menus,
the breadcrumbs as they are read, and their linking. So the error is that of the first refused item
in the first menu that has one; if no menu has one, that of the first refused breadcrumb; and only
when every breadcrumb has been read, that of linking them.

`FailsWith` says this in rules that name the document and the two normalizers, and nothing of the
compilation. Which errors linking itself can report is a matter of the ascents in the map.
-/

import MenuPlan.Proofs.Item.Reading
import MenuPlan.Proofs.Plan.Entries

namespace MenuPlan

variable {settings : Settings}

/-- The item of a menu is not accepted as an item. -/
def Menu.RefusesItem (settings : Settings) (menu : String) (raw : String × Data) : Prop :=
  ∃ error, Item.normalize settings.strictItems (itemLocation menu raw.1) raw.2 = .error error

/-- The menu has an item that is not accepted. -/
def Menu.HasRefusedItem (settings : Settings) (menu : String × Menu) : Prop :=
  ∃ raw ∈ menu.2.items, RefusesItem settings menu.1 raw

/-- The entry is not accepted as a breadcrumb. -/
def Breadcrumb.IsRefused (settings : Settings) (raw : String × Data) : Prop :=
  ∃ error, normalize settings.strictItems (Trail.location raw.1) raw.2 = .error error

/-- The error of a document, the first in the order of the rules. -/
inductive Outline.FailsWith (settings : Settings) (outline : Outline) : CompileError → Prop where
  | item {menu : String × Menu} {raw : String × Data} {detail : String}
      (firstMenu : IsFirst (Menu.HasRefusedItem settings) outline.menus menu)
      (firstItem : IsFirst (Menu.RefusesItem settings menu.1) menu.2.items raw)
      (refused : Item.normalize settings.strictItems (Menu.itemLocation menu.1 raw.1) raw.2 =
        .error (.validation ("menus." ++ menu.1 ++ ".items." ++ raw.1) detail)) :
      FailsWith settings outline (.validation ("menus." ++ menu.1 ++ ".items." ++ raw.1) detail)
  | breadcrumb {raw : String × Data} {detail : String}
      (items : ∀ menu ∈ outline.menus, ¬ Menu.HasRefusedItem settings menu)
      (first : IsFirst (Breadcrumb.IsRefused settings) outline.breadcrumbs raw)
      (refused : Breadcrumb.normalize settings.strictItems (Trail.location raw.1) raw.2 =
        .error (.validation ("breadcrumbs." ++ raw.1) detail)) :
      FailsWith settings outline (.validation ("breadcrumbs." ++ raw.1) detail)
  | linking {breadcrumbs : Fields Breadcrumb} {error : CompileError}
      (items : ∀ menu ∈ outline.menus, ¬ Menu.HasRefusedItem settings menu)
      (read : List.Forall₂ (Plan.IsBreadcrumbOf settings) outline.breadcrumbs breadcrumbs)
      (unlinked : (Trail.linkAll settings breadcrumbs).result = .error error) :
      FailsWith settings outline error

namespace Menu

/-- The items of a menu are read and built in one pass. -/
theorem result_itemCalls (settings : Settings) (menu : String) (items : List (String × Data)) :
    (itemCalls settings menu items).result = items.mapM fun raw =>
      (fun item => Call.addChild raw.1 (item.instruction settings raw.1)) <$>
        Item.normalize settings.strictItems (itemLocation menu raw.1) raw.2 := by
  induction items with
  | nil => rfl
  | cons raw rest ih =>
      rw [mapM_cons_eq_bind, itemCalls, ← ih]
      cases Item.normalize settings.strictItems (itemLocation menu raw.1) raw.2 with
      | error error => rfl
      | ok item => rfl

/-- A menu fails with the error of its first refused item. -/
theorem instruction_eq_error_iff {name : String} {menu : Menu} {error : CompileError} :
    (menu.instruction settings name).result = .error error ↔
      ∃ raw, IsFirst (RefusesItem settings name) menu.items raw ∧
        Item.normalize settings.strictItems (itemLocation name raw.1) raw.2 = .error error := by
  rw [instruction, map_eq_error_iff, result_itemCalls, mapM_eq_error_iff]
  simp only [map_eq_error_iff]
  rfl

/-- A menu fails exactly if one of its items is refused. -/
theorem exists_instruction_eq_error_iff {menu : String × Menu} :
    (∃ error, (menu.2.instruction settings menu.1).result = .error error) ↔
      HasRefusedItem settings menu := by
  rw [HasRefusedItem, ← exists_isFirst_iff]
  simp only [instruction_eq_error_iff]
  constructor
  · rintro ⟨error, raw, first, -⟩
    exact ⟨raw, first⟩
  · rintro ⟨raw, first⟩
    obtain ⟨error, refused⟩ := first.1
    exact ⟨error, raw, first, refused⟩

end Menu

namespace Plan

/-- The menus fail with the error of the first menu that has a refused item. -/
theorem menuEntries_eq_error_iff {menus : Fields Menu} {error : CompileError} :
    (menuEntries settings menus).result = .error error ↔
      ∃ menu, IsFirst (Menu.HasRefusedItem settings) menus menu ∧
        (menu.2.instruction settings menu.1).result = .error error := by
  rw [result_menuEntries, mapM_eq_error_iff]
  simp only [map_eq_error_iff, Menu.exists_instruction_eq_error_iff]

/-- The menus are built exactly if none of them has a refused item. -/
theorem exists_menuEntries_iff {menus : Fields Menu} :
    (∃ entries, (menuEntries settings menus).result = .ok entries) ↔
      ∀ menu ∈ menus, ¬ Menu.HasRefusedItem settings menu := by
  rw [result_menuEntries, exists_mapM_eq_ok_iff]
  simp only [map_eq_error_iff, Menu.exists_instruction_eq_error_iff]

/-- A breadcrumb keeps its name, and fails as it is read. -/
theorem readBreadcrumb_eq_error_iff {entry : String × Data} {error : CompileError} :
    (do return (entry.1,
      ← Breadcrumb.normalize settings.strictItems (Trail.location entry.1) entry.2)) =
        Except.error error ↔
      Breadcrumb.normalize settings.strictItems (Trail.location entry.1) entry.2 =
        .error error := by
  rw [bind_eq_error_iff]
  exact or_iff_left nofun

/-- The breadcrumbs fail with the error of the first that is refused. -/
theorem readBreadcrumbs_eq_error_iff {raw : Fields Data} {error : CompileError} :
    readBreadcrumbs settings raw = .error error ↔
      ∃ entry, IsFirst (Breadcrumb.IsRefused settings) raw entry ∧
        Breadcrumb.normalize settings.strictItems (Trail.location entry.1) entry.2 =
          .error error := by
  rw [readBreadcrumbs, mapM_eq_error_iff]
  simp only [readBreadcrumb_eq_error_iff]
  rfl

/-- The breadcrumbs are read exactly if none of them is refused. -/
theorem exists_readBreadcrumbs_iff {raw : Fields Data} :
    (∃ breadcrumbs, readBreadcrumbs settings raw = .ok breadcrumbs) ↔
      ∀ entry ∈ raw, ¬ Breadcrumb.IsRefused settings entry := by
  rw [readBreadcrumbs, exists_mapM_eq_ok_iff]
  simp only [readBreadcrumb_eq_error_iff]
  rfl

end Plan

namespace Outline

/-- A compilation fails at one of its stages, after the stages before it have succeeded. -/
theorem compile_eq_error_iff {outline : Outline} {error : CompileError} :
    outline.compile settings = .error error ↔
      (Plan.menuEntries settings outline.menus).result = .error error ∨
        ∃ menus, (Plan.menuEntries settings outline.menus).result = .ok menus ∧
          (Plan.readBreadcrumbs settings outline.breadcrumbs = .error error ∨
            ∃ breadcrumbs, Plan.readBreadcrumbs settings outline.breadcrumbs = .ok breadcrumbs ∧
              (Trail.linkAll settings breadcrumbs).result = .error error) := by
  rw [compile]
  simp only [bind_eq_error_iff]
  constructor
  · rintro (failed | ⟨menus, isMenus, failed | ⟨breadcrumbs, isRead, failed | ⟨_, -, failed⟩⟩⟩)
    · exact Or.inl failed
    · exact Or.inr ⟨menus, isMenus, Or.inl failed⟩
    · exact Or.inr ⟨menus, isMenus, Or.inr ⟨breadcrumbs, isRead, failed⟩⟩
    · cases failed
  · rintro (failed | ⟨menus, isMenus, failed | ⟨breadcrumbs, isRead, failed⟩⟩)
    · exact Or.inl failed
    · exact Or.inr ⟨menus, isMenus, Or.inl failed⟩
    · exact Or.inr ⟨menus, isMenus, Or.inr ⟨breadcrumbs, isRead, Or.inl failed⟩⟩

/-- The rules give the error of a compilation. -/
theorem compile_eq_error_iff_failsWith {outline : Outline} {error : CompileError} :
    outline.compile settings = .error error ↔ outline.FailsWith settings error := by
  rw [compile_eq_error_iff]
  constructor
  · rintro (failed | ⟨menus, isMenus, failed | ⟨breadcrumbs, isRead, failed⟩⟩)
    · obtain ⟨menu, firstMenu, isError⟩ := Plan.menuEntries_eq_error_iff.mp failed
      obtain ⟨raw, firstItem, refused⟩ := Menu.instruction_eq_error_iff.mp isError
      obtain ⟨detail, rfl⟩ := Item.normalize_eq_error refused
      exact FailsWith.item firstMenu firstItem refused
    · have items := Plan.exists_menuEntries_iff.mp ⟨menus, isMenus⟩
      obtain ⟨raw, first, refused⟩ := Plan.readBreadcrumbs_eq_error_iff.mp failed
      obtain ⟨detail, rfl⟩ := Breadcrumb.normalize_eq_error refused
      exact FailsWith.breadcrumb items first refused
    · have items := Plan.exists_menuEntries_iff.mp ⟨menus, isMenus⟩
      exact FailsWith.linking items (Plan.readBreadcrumbs_eq_ok_iff.mp isRead) failed
  · intro fails
    cases fails with
    | item firstMenu firstItem refused =>
        have isError := Menu.instruction_eq_error_iff.mpr ⟨_, firstItem, refused⟩
        exact Or.inl (Plan.menuEntries_eq_error_iff.mpr ⟨_, firstMenu, isError⟩)
    | breadcrumb items first refused =>
        obtain ⟨menus, isMenus⟩ := Plan.exists_menuEntries_iff.mpr items
        have failed := Plan.readBreadcrumbs_eq_error_iff.mpr ⟨_, first, refused⟩
        exact Or.inr ⟨menus, isMenus, Or.inl failed⟩
    | linking items read unlinked =>
        obtain ⟨menus, isMenus⟩ := Plan.exists_menuEntries_iff.mpr items
        have isRead := Plan.readBreadcrumbs_eq_ok_iff.mpr read
        exact Or.inr ⟨menus, isMenus, Or.inr ⟨_, isRead, unlinked⟩⟩

/-- A compilation succeeds only when every part of the document is accepted and the breadcrumbs
form a closed forest. -/
theorem accepted_of_compile {outline : Outline} {compiled : Compiled}
    (distinct : Fields.Distinct outline.breadcrumbs)
    (succeeded : outline.compile settings = .ok compiled) :
    (∀ menu ∈ outline.menus, ¬ Menu.HasRefusedItem settings menu) ∧
      (∀ raw ∈ outline.breadcrumbs, ¬ Breadcrumb.IsRefused settings raw) ∧
      ∀ breadcrumbs, List.Forall₂ (Plan.IsBreadcrumbOf settings) outline.breadcrumbs breadcrumbs →
        Trail.ClosedForest breadcrumbs := by
  obtain ⟨menus, breadcrumbs, trails, isMenus, isRead, isLinked, -, -⟩ :=
    compile_eq_ok_iff.mp succeeded
  refine ⟨Plan.exists_menuEntries_iff.mp ⟨menus, isMenus⟩,
    Plan.exists_readBreadcrumbs_iff.mp ⟨breadcrumbs, isRead⟩, ?_⟩
  intro other readsAs
  rw [Plan.readBreadcrumbs_eq_ok_iff.mpr readsAs] at isRead
  cases isRead
  have distinctRead : Fields.Distinct breadcrumbs := by
    rwa [Fields.Distinct, Plan.names_of_isBreadcrumbOf readsAs]
  exact (Trail.exists_trails_iff_closedForest settings distinctRead).mp ⟨trails, isLinked⟩

/-- A document where everything is wrong at once, behind a menu and a breadcrumb that are fine: two
menus with refused items, a breadcrumb that is refused, and a loop before it. -/
def manyFaults : Outline where
  menus := [
    ("fine", { items := [("home", .null)] }),
    ("main", { items := [("home", .null), ("about", .object [("icon", .null)]), ("more", .bool true)] }),
    ("last", { items := [("end", .bool false)] })]
  breadcrumbs := [
    ("loop", .object [("parent", .string "loop")]),
    ("stray", .object [("parent", .bool true)])]

/-- A compilation fails exactly if an item of a menu is refused, or a breadcrumb is refused, or the
breadcrumbs that were read are no closed forest. Then the error is the one of the rules: that of the
first refused item in the first menu with one, reported at this item; without any, that of the first
refused breadcrumb, reported at this breadcrumb; and that of linking otherwise. -/
theorem compile_fails_at_first_refusal (settings : Settings) (outline : Outline)
    (distinct : Fields.Distinct outline.breadcrumbs) :
    ((∃ error, outline.compile settings = .error error) ↔
        (∃ menu ∈ outline.menus, ∃ raw ∈ menu.2.items, Menu.RefusesItem settings menu.1 raw) ∨
        (∃ raw ∈ outline.breadcrumbs, Breadcrumb.IsRefused settings raw) ∨
        ∃ breadcrumbs,
          List.Forall₂ (Plan.IsBreadcrumbOf settings) outline.breadcrumbs breadcrumbs ∧
            ¬ Trail.ClosedForest breadcrumbs) ∧
      ∀ error, outline.compile settings = .error error ↔ outline.FailsWith settings error := by
  refine ⟨⟨?_, ?_⟩, fun error => compile_eq_error_iff_failsWith⟩
  · rintro ⟨error, failed⟩
    cases compile_eq_error_iff_failsWith.mp failed with
    | item firstMenu _ _ => exact Or.inl ⟨_, firstMenu.mem, firstMenu.1⟩
    | breadcrumb _ first _ => exact Or.inr (Or.inl ⟨_, first.mem, first.1⟩)
    | @linking breadcrumbs _ _ read unlinked =>
        refine Or.inr (Or.inr ⟨breadcrumbs, read, ?_⟩)
        intro forest
        have distinctRead : Fields.Distinct breadcrumbs := by
          rwa [Fields.Distinct, Plan.names_of_isBreadcrumbOf read]
        obtain ⟨trails, isLinked⟩ :=
          (Trail.exists_trails_iff_closedForest settings distinctRead).mpr forest
        cases unlinked.symm.trans isLinked
  · intro wrong
    by_contra noError
    obtain ⟨compiled, succeeded⟩ := exists_ok_iff.mpr noError
    obtain ⟨items, accepted, forest⟩ := accepted_of_compile distinct succeeded
    rcases wrong with ⟨menu, member, hasRefused⟩ | ⟨raw, member, refused⟩ |
      ⟨breadcrumbs, read, noForest⟩
    · exact items menu member hasRefused
    · exact accepted raw member refused
    · exact noForest (forest breadcrumbs read)

/-- Of all that is wrong with the document, the first item of the second menu that is refused is
reported, and this is the only error by the rules. -/
theorem manyFaults_fails_at_about :
    Fields.Distinct manyFaults.breadcrumbs ∧
      (∃ error, manyFaults.compile {} = .error error) ∧
      ∀ error, manyFaults.FailsWith {} error ↔
        error = .validation "menus.main.items.about"
          "Additional properties are not allowed ('icon' was unexpected)" := by
  have distinct : Fields.Distinct manyFaults.breadcrumbs := by decide
  have fails : manyFaults.compile {} = .error (.validation "menus.main.items.about"
      "Additional properties are not allowed ('icon' was unexpected)") := by rfl
  have inOrder := compile_fails_at_first_refusal {} manyFaults distinct
  refine ⟨distinct, ⟨_, fails⟩, ?_⟩
  intro error
  rw [← inOrder.2, fails]
  constructor
  · intro same
    exact (Except.error.inj same).symm
  · rintro rfl
    rfl

end Outline

end MenuPlan

/-
# The entries of a plan

A plan is filled by inserting entries one after another, and inserting under a key that is present
would replace what is there. It never happens: the keys of menus and those of breadcrumbs differ in
the letter behind the key space, whatever the names are, and within each kind a key determines its
name. So a plan is the list of its entries, every menu by itself, followed by every trail.
-/

import MenuPlan.Plan
import MenuPlan.Proofs.Steps
import MenuPlan.Proofs.Trail.Linking

namespace MenuPlan

namespace Settings

/-- A key of a menu determines the menu's name. -/
theorem menuKey_inj (settings : Settings) {first second : String} :
    settings.menuKey first = settings.menuKey second ↔ first = second :=
  String.append_right_inj _

/-- A key of a breadcrumb determines the breadcrumb's name. -/
theorem breadcrumbKey_inj (settings : Settings) {first second : String} :
    settings.breadcrumbKey first = settings.breadcrumbKey second ↔ first = second :=
  String.append_right_inj _

/-- No menu has the key of a breadcrumb. Behind the key space and a dot, the one goes on with an `m`
and the other with a `b`, so dots in the names or in the key space make no difference. -/
theorem menuKey_ne_breadcrumbKey (settings : Settings) (menu breadcrumb : String) :
    settings.menuKey menu ≠ settings.breadcrumbKey breadcrumb := by
  intro same
  rw [menuKey, breadcrumbKey, String.append_assoc, String.append_assoc,
    String.append_right_inj] at same
  have letters : (".menu." ++ menu).toList[1]? = (".breadcrumbs." ++ breadcrumb).toList[1]? := by
    rw [same]
  simp [String.toList_append] at letters

end Settings

/-- What is read one by one under the names of the data has these names. -/
theorem Fields.names_eq_of_forall₂ {α β : Type} {R : String × α → String × β → Prop}
    {fields : Fields α} {others : Fields β} (sameName : ∀ entry other, R entry other →
      other.1 = entry.1) (each : List.Forall₂ R fields others) :
    Fields.names others = Fields.names fields := by
  induction each with
  | nil => rfl
  | cons related _ ih => rw [Fields.names_cons, Fields.names_cons, ih, sameName _ _ related]

namespace Plan

variable {settings : Settings}

/-- An entry holds what its menu becomes by itself, under the key of the menu. -/
def IsMenuEntry (settings : Settings) (menu : String × Menu) (entry : String × Instruction) :
    Prop :=
  entry.1 = settings.menuKey menu.1 ∧ (menu.2.instruction settings menu.1).result = .ok entry.2

/-- The menus are built in one pass. -/
theorem result_menuEntries (settings : Settings) (menus : Fields Menu) :
    (menuEntries settings menus).result = menus.mapM fun menu =>
      (settings.menuKey menu.1, ·) <$> (menu.2.instruction settings menu.1).result := by
  induction menus with
  | nil => rfl
  | cons menu rest ih =>
      rw [mapM_cons_eq_bind, menuEntries, ← ih]
      cases (menu.2.instruction settings menu.1).result with
      | error error => rfl
      | ok instruction => rfl

/-- The menus contribute one entry each, in their order, when every menu succeeds by itself. -/
theorem menuEntries_eq_ok_iff {menus : Fields Menu} {entries : Fields Instruction} :
    (menuEntries settings menus).result = .ok entries ↔
      List.Forall₂ (IsMenuEntry settings) menus entries := by
  have step : ∀ (menu : String × Menu) (entry : String × Instruction),
      (settings.menuKey menu.1, ·) <$> (menu.2.instruction settings menu.1).result = .ok entry ↔
        IsMenuEntry settings menu entry := by
    intro menu entry
    rw [map_eq_ok_iff]
    constructor
    · rintro ⟨instruction, isRoot, rfl⟩
      exact ⟨rfl, isRoot⟩
    · rintro ⟨isKey, isRoot⟩
      refine ⟨entry.2, isRoot, ?_⟩
      rw [← isKey]
  rw [result_menuEntries, mapM_eq_ok_iff]
  simp only [step]

/-- A breadcrumb that has been read from the data under its name. -/
def IsBreadcrumbOf (settings : Settings) (raw : String × Data) (read : String × Breadcrumb) :
    Prop :=
  read.1 = raw.1 ∧
    Breadcrumb.normalize settings.strictItems (Trail.location raw.1) raw.2 = .ok read.2

/-- The breadcrumbs of a document are read one by one. -/
theorem readBreadcrumbs_eq_ok_iff {raw : Fields Data} {breadcrumbs : Fields Breadcrumb} :
    readBreadcrumbs settings raw = .ok breadcrumbs ↔
      List.Forall₂ (IsBreadcrumbOf settings) raw breadcrumbs := by
  have step : ∀ entry read, (do return (entry.1,
      ← Breadcrumb.normalize settings.strictItems (Trail.location entry.1) entry.2)) = .ok read ↔
        IsBreadcrumbOf settings entry read := by
    intro entry read
    rw [bind_eq_ok_iff]
    constructor
    · rintro ⟨breadcrumb, isRead, isEntry⟩
      cases isEntry
      exact ⟨rfl, isRead⟩
    · rintro ⟨isName, isRead⟩
      refine ⟨read.2, isRead, ?_⟩
      rw [← isName]
      rfl
  rw [readBreadcrumbs, mapM_eq_ok_iff]
  constructor
  · intro each
    exact each.imp fun entry read => (step entry read).mp
  · intro each
    exact each.imp fun entry read => (step entry read).mpr

/-- The entries of menus have the keys of the menus. -/
theorem names_of_isMenuEntry {menus : Fields Menu} {entries : Fields Instruction}
    (each : List.Forall₂ (IsMenuEntry settings) menus entries) :
    Fields.names entries = (Fields.names menus).map settings.menuKey := by
  induction each with
  | nil => rfl
  | cons isEntry _ ih => rw [Fields.names_cons, ih, isEntry.1]; rfl

/-- The entries of trails have the keys of their breadcrumbs. -/
theorem names_trailEntries (trails : Fields Instruction) :
    Fields.names (trailEntries settings trails) =
      (Fields.names trails).map settings.breadcrumbKey := by
  simp only [trailEntries, Fields.names, List.map_map, Function.comp_def]

/-- Reading breadcrumbs keeps their names. -/
theorem names_of_isBreadcrumbOf {raw : Fields Data} {breadcrumbs : Fields Breadcrumb}
    (each : List.Forall₂ (IsBreadcrumbOf settings) raw breadcrumbs) :
    Fields.names breadcrumbs = Fields.names raw :=
  Fields.names_eq_of_forall₂ (fun _ _ => And.left) each

/-- Entries of distinct menus and distinct trails have distinct keys. -/
theorem distinct_entries {menus : Fields Menu} {entries trails : Fields Instruction}
    (distinctMenus : Fields.Distinct menus) (distinctTrails : Fields.Distinct trails)
    (each : List.Forall₂ (IsMenuEntry settings) menus entries) :
    Fields.Distinct (entries ++ trailEntries settings trails) := by
  rw [Fields.Distinct, Fields.names_append, names_of_isMenuEntry each, names_trailEntries]
  have menuKeys : ((Fields.names menus).map settings.menuKey).Nodup :=
    List.Nodup.map (fun _ _ same => settings.menuKey_inj.mp same) distinctMenus
  have trailKeys : ((Fields.names trails).map settings.breadcrumbKey).Nodup :=
    List.Nodup.map (fun _ _ same => settings.breadcrumbKey_inj.mp same) distinctTrails
  apply List.nodup_append.mpr ⟨menuKeys, trailKeys, _⟩
  rintro key isMenuKey other isTrailKey rfl
  obtain ⟨menu, -, rfl⟩ := List.mem_map.mp isMenuKey
  obtain ⟨breadcrumb, -, same⟩ := List.mem_map.mp isTrailKey
  exact settings.menuKey_ne_breadcrumbKey menu breadcrumb same.symm

/-- Every menu has its entry. -/
theorem exists_menuEntry {menus : Fields Menu} {entries : Fields Instruction}
    (each : List.Forall₂ (IsMenuEntry settings) menus entries) {name : String} {menu : Menu}
    (member : (name, menu) ∈ menus) :
    ∃ instruction, (menu.instruction settings name).result = .ok instruction ∧
      (settings.menuKey name, instruction) ∈ entries := by
  obtain ⟨entry, inEntries, isKey, isRoot⟩ := exists_mem_of_forall₂_left each member
  refine ⟨entry.2, isRoot, ?_⟩
  rw [← isKey]
  exact inEntries

end Plan

namespace Outline

variable {settings : Settings} {outline : Outline} {compiled : Compiled}

/-- What a compilation consists of. -/
theorem compile_eq_ok_iff :
    outline.compile settings = .ok compiled ↔
      ∃ menus breadcrumbs trails,
        (Plan.menuEntries settings outline.menus).result = .ok menus ∧
        Plan.readBreadcrumbs settings outline.breadcrumbs = .ok breadcrumbs ∧
        (Trail.linkAll settings breadcrumbs).result = .ok trails ∧
        compiled.plan = Fields.ofEntries (menus ++ Plan.trailEntries settings trails) ∧
        compiled.warnings =
          Warning.collect [] (Plan.menuEntries settings outline.menus).raised ++
            Warning.collect [] (Trail.linkAll settings breadcrumbs).raised := by
  rw [compile]
  simp only [bind_eq_ok_iff]
  constructor
  · rintro ⟨menus, isMenus, breadcrumbs, isRead, trails, isLinked, isCompiled⟩
    cases isCompiled
    exact ⟨menus, breadcrumbs, trails, isMenus, isRead, isLinked, rfl, rfl⟩
  · rintro ⟨menus, breadcrumbs, trails, isMenus, isRead, isLinked, isPlan, isWarnings⟩
    refine ⟨menus, isMenus, breadcrumbs, isRead, trails, isLinked, ?_⟩
    cases compiled
    cases isPlan
    cases isWarnings
    rfl

/-- Trails have the names of the breadcrumbs that were linked. -/
theorem names_of_linkAll {breadcrumbs : Fields Breadcrumb} {trails : Fields Instruction}
    (isLinked : (Trail.linkAll settings breadcrumbs).result = .ok trails) :
    Fields.names trails = Fields.names breadcrumbs := by
  obtain ⟨-, rfl⟩ := (Trail.linkAll_eq_ok_iff trails).mp isLinked
  exact Trail.names_linked breadcrumbs

/-- The entries of a plan, none of which is lost to another with its key. -/
theorem compile_entries (distinctMenus : Fields.Distinct outline.menus)
    (distinctBreadcrumbs : Fields.Distinct outline.breadcrumbs)
    (succeeded : outline.compile settings = .ok compiled) :
    ∃ menus breadcrumbs trails,
      List.Forall₂ (Plan.IsMenuEntry settings) outline.menus menus ∧
      List.Forall₂ (Plan.IsBreadcrumbOf settings) outline.breadcrumbs breadcrumbs ∧
      (Trail.linkAll settings breadcrumbs).result = .ok trails ∧
      Fields.names trails = Fields.names outline.breadcrumbs ∧
      compiled.plan = menus ++ Plan.trailEntries settings trails ∧
      Fields.Distinct compiled.plan := by
  obtain ⟨menus, breadcrumbs, trails, isMenus, isRead, isLinked, isPlan, -⟩ :=
    compile_eq_ok_iff.mp succeeded
  rw [Plan.menuEntries_eq_ok_iff] at isMenus
  rw [Plan.readBreadcrumbs_eq_ok_iff] at isRead
  have sameNames : Fields.names trails = Fields.names outline.breadcrumbs := by
    rw [names_of_linkAll isLinked, Plan.names_of_isBreadcrumbOf isRead]
  have distinctTrails : Fields.Distinct trails := by
    rwa [Fields.Distinct, sameNames]
  have distinct := Plan.distinct_entries distinctMenus distinctTrails isMenus
  rw [Fields.ofEntries_of_distinct distinct] at isPlan
  exact ⟨menus, breadcrumbs, trails, isMenus, isRead, isLinked, sameNames, isPlan, isPlan ▸ distinct⟩

/-- Under the key of a menu, a plan has what the menu becomes by itself. -/
theorem get?_plan_menuKey (distinctMenus : Fields.Distinct outline.menus)
    (distinctBreadcrumbs : Fields.Distinct outline.breadcrumbs)
    (succeeded : outline.compile settings = .ok compiled) {name : String} {menu : Menu}
    (member : (name, menu) ∈ outline.menus) :
    ∃ instruction, (menu.instruction settings name).result = .ok instruction ∧
      Fields.get? compiled.plan (settings.menuKey name) = some instruction := by
  obtain ⟨menus, -, trails, isMenus, -, -, -, isPlan, distinct⟩ :=
    compile_entries distinctMenus distinctBreadcrumbs succeeded
  obtain ⟨instruction, isRoot, inMenus⟩ := Plan.exists_menuEntry isMenus member
  refine ⟨instruction, isRoot, Fields.get?_eq_some_of_mem distinct ?_⟩
  rw [isPlan]
  exact List.mem_append_left _ inMenus

/-- A document whose names look like keys, with a menu and a breadcrumb of one name. -/
def namesLikeKeys : Outline where
  menus := [("a", {}), ("a.breadcrumbs.b", { attributes := [("label", .string "B")] })]
  breadcrumbs := [("a", .object [("parent", .string "menu.a")]), ("menu.a", .null)]

/-- The plan of a document has one entry for every menu and then one for every breadcrumb, in the
order of the document and under distinct keys: for a menu what it becomes by itself, for a
breadcrumb its trail in the map of the breadcrumbs read. So the entry of a menu is the same in the
plan of every other document with this menu. -/
theorem compile_plan_entries (settings : Settings) (outline : Outline) (compiled : Compiled)
    (distinctMenus : Fields.Distinct outline.menus)
    (distinctBreadcrumbs : Fields.Distinct outline.breadcrumbs)
    (succeeded : outline.compile settings = .ok compiled) :
    (∃ menus breadcrumbs trails,
      List.Forall₂ (fun menu entry => entry.1 = settings.menuKey menu.1 ∧
        (menu.2.instruction settings menu.1).result = .ok entry.2) outline.menus menus ∧
      List.Forall₂ (fun raw read => read.1 = raw.1 ∧
        Breadcrumb.normalize settings.strictItems (Trail.location raw.1) raw.2 = .ok read.2)
        outline.breadcrumbs breadcrumbs ∧
      (Trail.linkAll settings breadcrumbs).result = .ok trails ∧
      Fields.names trails = Fields.names outline.breadcrumbs ∧
      compiled.plan =
        menus ++ trails.map fun trail => (settings.breadcrumbKey trail.1, trail.2)) ∧
    Fields.Distinct compiled.plan ∧
    compiled.plan.length = outline.menus.length + outline.breadcrumbs.length ∧
    ∀ (other : Outline) (compiledOther : Compiled),
      Fields.Distinct other.menus → Fields.Distinct other.breadcrumbs →
      other.compile settings = .ok compiledOther →
      ∀ name menu, (name, menu) ∈ outline.menus → (name, menu) ∈ other.menus →
        ∃ instruction, Fields.get? compiled.plan (settings.menuKey name) = some instruction ∧
          Fields.get? compiledOther.plan (settings.menuKey name) = some instruction := by
  obtain ⟨menus, breadcrumbs, trails, isMenus, isRead, isLinked, sameNames, isPlan, distinct⟩ :=
    compile_entries distinctMenus distinctBreadcrumbs succeeded
  refine ⟨⟨menus, breadcrumbs, trails, isMenus, isRead, isLinked, sameNames, isPlan⟩, distinct,
    ?_, ?_⟩
  · have sameLength := congrArg List.length sameNames
    simp only [Fields.names, List.length_map] at sameLength
    rw [isPlan, List.length_append, Plan.trailEntries, List.length_map, sameLength,
      isMenus.length_eq]
  · intro other compiledOther distinctOther distinctOtherBreadcrumbs succeededOther name menu
      member memberOther
    obtain ⟨instruction, isRoot, found⟩ :=
      get?_plan_menuKey distinctMenus distinctBreadcrumbs succeeded member
    obtain ⟨same, isSame, foundOther⟩ :=
      get?_plan_menuKey distinctOther distinctOtherBreadcrumbs succeededOther memberOther
    rw [isRoot] at isSame
    cases isSame
    exact ⟨instruction, found, foundOther⟩

/-- Names that look like keys do not make entries collide. -/
theorem namesLikeKeys_plan_entries :
    Fields.Distinct namesLikeKeys.menus ∧ Fields.Distinct namesLikeKeys.breadcrumbs ∧
      ∃ compiled, namesLikeKeys.compile {} = .ok compiled ∧ compiled.plan.length = 4 ∧
        Fields.Distinct compiled.plan := by
  have distinctMenus : Fields.Distinct namesLikeKeys.menus := by decide
  have distinctBreadcrumbs : Fields.Distinct namesLikeKeys.breadcrumbs := by decide
  cases succeeded : namesLikeKeys.compile {} with
  | error error =>
      have isOk : (namesLikeKeys.compile {}).isOk = true := by cbv
      rw [succeeded] at isOk
      cases isOk
  | ok compiled =>
      obtain ⟨-, distinct, isLength, -⟩ :=
        compile_plan_entries {} namesLikeKeys compiled distinctMenus distinctBreadcrumbs succeeded
      exact ⟨distinctMenus, distinctBreadcrumbs, compiled, rfl, isLength, distinct⟩

end Outline

end MenuPlan

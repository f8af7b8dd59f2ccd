/-
# The roots of a plan

An entry of a plan is the root of a menu or the root of a trail. Both attach items that have been
read from the document, so what holds of everything that can be read holds of all items attached.
`Plan.IsEntry` says this for any such property, and later modules need not look at menus and trails
again.
-/

import MenuPlan.Proofs.Plan.Failure

namespace MenuPlan

variable {settings : Settings}

/-- The calls attach items with a property. -/
def Call.AttachItems (P : Item → Prop) (settings : Settings) (calls : List Call) : Prop :=
  ∀ call ∈ calls, ∃ (name : String) (item : Item), P item ∧
    Call.addChild name (item.instruction settings name) = call

/-- A menu attaches the items that are read from its data. -/
theorem Menu.attachItems_itemCalls {P : Item → Prop} {menu : String} {items : List (String × Data)}
    {calls : List Call}
    (ofItem : ∀ raw ∈ items, ∀ location item,
      Item.normalize settings.strictItems location raw.2 = .ok item → P item)
    (succeeded : (itemCalls settings menu items).result = .ok calls) :
    Call.AttachItems P settings calls := by
  rw [result_itemCalls, mapM_eq_ok_iff] at succeeded
  intro call isCall
  obtain ⟨raw, isRaw, isAdded⟩ := exists_mem_of_forall₂_right succeeded isCall
  obtain ⟨item, isItem, isCall⟩ := map_eq_ok_iff.mp isAdded
  exact ⟨raw.1, item, ofItem raw isRaw _ item isItem, isCall⟩

namespace Trail

/-- A climb stays among the breadcrumbs that it is given. -/
theorem mem_climb_path {all remaining : Fields Breadcrumb} {visited : List String} {name : String}
    {breadcrumb : Breadcrumb} :
    ∀ step ∈ (climb all remaining visited name breadcrumb).path,
      step = (name, breadcrumb) ∨ step ∈ remaining := by
  fun_induction climb all remaining visited name breadcrumb with
  | case1 | case3 =>
      intro step onPath
      exact Or.inl (List.mem_singleton.mp onPath)
  | case2 remaining visited name breadcrumb parent hasParent next found rest =>
      rename_i ih
      intro step onPath
      rcases List.mem_cons.mp onPath with isStart | later
      · exact Or.inl isStart
      · rcases ih step later with rfl | remains
        · exact Or.inr (Fields.mem_of_get?_eq_some found)
        · exact Or.inr (List.mem_of_mem_filter remains)

/-- A trail attaches the items of breadcrumbs. -/
theorem attachItems_ofPath {P : Item → Prop} (settings : Settings) {all : Fields Breadcrumb}
    (holds : ∀ entry ∈ all, P entry.2.item) {entry : String × Breadcrumb} (member : entry ∈ all) :
    Call.AttachItems P settings
      (ofPath settings entry.1 (climbFrom all entry.1 entry.2).path).calls := by
  intro call isCall
  obtain ⟨step, onPath, isAdded⟩ := List.mem_map.mp isCall
  refine ⟨step.1, step.2.item, ?_, isAdded⟩
  rcases mem_climb_path step (List.mem_reverse.mp onPath) with rfl | remains
  · exact holds entry member
  · exact holds step (List.mem_of_mem_filter remains)

end Trail

/-- What an entry of a plan is made of: the root of a menu with its attributes, or that of a trail
without any, and calls that attach items. -/
inductive Plan.IsEntry (P : Item → Prop) (settings : Settings) (outline : Outline) :
    String × Instruction → Prop where
  | menu {name : String} {menu : Menu} {calls : List Call} (isMenu : (name, menu) ∈ outline.menus)
      (attach : Call.AttachItems P settings calls) :
      IsEntry P settings outline
        (settings.menuKey name, { settings.rootCall name menu.rootAttributes with calls })
  | breadcrumb {name : String} {calls : List Call} (known : name ∈ Fields.names outline.breadcrumbs)
      (attach : Call.AttachItems P settings calls) :
      IsEntry P settings outline
        (settings.breadcrumbKey name, { settings.rootCall name [] with calls })

/-- What holds of everything that can be read from the data of a document holds of the items in its
plan. -/
theorem Outline.isEntry_of_mem_plan {P : Item → Prop} {outline : Outline} {compiled : Compiled}
    (succeeded : outline.compile settings = .ok compiled)
    (ofItem : ∀ menu ∈ outline.menus, ∀ raw ∈ menu.2.items, ∀ location item,
      Item.normalize settings.strictItems location raw.2 = .ok item → P item)
    (ofBreadcrumb : ∀ raw ∈ outline.breadcrumbs, ∀ location breadcrumb,
      Breadcrumb.normalize settings.strictItems location raw.2 = .ok breadcrumb →
        P breadcrumb.item)
    {entry : String × Instruction} (member : entry ∈ compiled.plan) :
    Plan.IsEntry P settings outline entry := by
  obtain ⟨menus, breadcrumbs, trails, isMenus, isRead, isLinked, isPlan, -⟩ :=
    compile_eq_ok_iff.mp succeeded
  rw [isPlan] at member
  rcases List.mem_append.mp (Fields.mem_of_mem_ofEntries member) with ofMenu | ofTrail
  · obtain ⟨menu, isMenu, isKey, isRoot⟩ :=
      exists_mem_of_forall₂_right (Plan.menuEntries_eq_ok_iff.mp isMenus) ofMenu
    obtain ⟨calls, isCalls, isInstruction⟩ := map_eq_ok_iff.mp isRoot
    have isEntry : entry = (settings.menuKey menu.1,
        { settings.rootCall menu.1 menu.2.rootAttributes with calls }) :=
      Prod.ext isKey isInstruction.symm
    rw [isEntry]
    exact Plan.IsEntry.menu isMenu (Menu.attachItems_itemCalls (ofItem menu isMenu) isCalls)
  · have areBreadcrumbs := Plan.readBreadcrumbs_eq_ok_iff.mp isRead
    have holds : ∀ entry ∈ breadcrumbs, P entry.2.item := by
      intro entry member
      obtain ⟨raw, isRaw, -, isBreadcrumb⟩ := exists_mem_of_forall₂_right areBreadcrumbs member
      exact ofBreadcrumb raw isRaw _ entry.2 isBreadcrumb
    obtain ⟨-, rfl⟩ := (Trail.linkAll_eq_ok_iff trails).mp isLinked
    obtain ⟨trail, isTrail, rfl⟩ := List.mem_map.mp ofTrail
    obtain ⟨breadcrumb, inMap, rfl⟩ := List.mem_map.mp isTrail
    have known : breadcrumb.1 ∈ Fields.names outline.breadcrumbs := by
      rw [← Plan.names_of_isBreadcrumbOf areBreadcrumbs]
      exact List.mem_map_of_mem inMap
    exact Plan.IsEntry.breadcrumb known (Trail.attachItems_ofPath settings holds inMap)

end MenuPlan

/-
# Plans that are restored

A document in which no object repeats a name and all numbers are integers is compiled to a plan that
is restored after it has been written. The document's data goes through two readers, one for the
document and one for its items, and neither loses this property.
-/

import MenuPlan.Proofs.Item.Restoring
import MenuPlan.Proofs.Outline
import MenuPlan.Proofs.Plan.Roots

namespace MenuPlan

open Json (Restored restored_object_iff restored_string)

/-- The data of a menu is restored. -/
structure Menu.IsRestored (menu : Menu) : Prop where
  options : Restored (.object menu.options)
  items : ∀ raw ∈ menu.items, Restored raw.2
  attributes : ∀ entry ∈ menu.attributes, Restored entry.2

namespace Menu

/-- A menu that is read of restored data has restored data. -/
theorem isRestored_of_read {value : Data} {menu : Menu} (restored : Restored value)
    (isRead : read value = .ok menu) : menu.IsRestored := by
  cases value with
  | object members =>
      have each := (restored_object_iff.mp restored).2
      have taken := takesIn_of_readMembers isRead
      refine ⟨taken.options.restored each,
        (restored_object_iff.mp (taken.items.restored each)).2, ?_⟩
      rw [taken.attributes, List.nil_append]
      exact fun entry kept => each entry (List.mem_of_mem_filter kept)
  | null | bool _ | number _ | string _ | array _ => cases isRead

/-- The attributes of its root are written so that they are restored. -/
theorem IsRestored.rootAttributes {menu : Menu} (restored : menu.IsRestored) :
    Term.RestoredEntries menu.rootAttributes := by
  refine (Term.RestoredEntries.ofMembers restored.options).overlay ?_
  rw [Term.ofMembers_eq_mapValues, Fields.mapValues, List.forall_mem_map]
  exact fun entry member => Data.restored_inPlan (restored.attributes entry member)

end Menu

/-- The data of a document is restored. -/
structure Outline.IsRestored (outline : Outline) : Prop where
  menus : ∀ entry ∈ outline.menus, entry.2.IsRestored
  breadcrumbs : ∀ raw ∈ outline.breadcrumbs, Restored raw.2

namespace Outline

/-- Menus that are read of restored data have restored data. -/
theorem isRestored_of_readMenus {value : Data} {menus : Fields Menu} (restored : Restored value)
    (areMenus : readMenus value = .ok menus) : ∀ entry ∈ menus, entry.2.IsRestored := by
  obtain ⟨entries, rfl, areRead⟩ := readMenus_eq_ok_iff.mp areMenus
  intro entry member
  obtain ⟨raw, isRaw, -, isRead⟩ := exists_mem_of_forall₂_right areRead member
  exact Menu.isRestored_of_read ((restored_object_iff.mp restored).2 raw isRaw) isRead

/-- A document whose root is restored has restored data. -/
theorem isRestored_of_ofData {root : Data} {outline : Outline} (restored : Restored root)
    (isRead : ofData root = .ok outline) : outline.IsRestored := by
  cases root with
  | null =>
      cases isRead
      exact ⟨List.forall_mem_nil _, List.forall_mem_nil _⟩
  | object members =>
      rw [ofData] at isRead
      split at isRead
      · rename_i done areRead
        cases isRead
        have each := (restored_object_iff.mp restored).2
        have taken := takesIn_of_readMembers areRead
        refine ⟨?_, (restored_object_iff.mp (taken.breadcrumbs.restored each)).2⟩
        rcases taken.menus with ⟨-, none⟩ | ⟨value, member, areMenus⟩
        · rw [none]
          exact List.forall_mem_nil _
        · exact isRestored_of_readMenus (each _ member) areMenus
      · cases isRead
  | bool _ | number _ | string _ | array _ => cases isRead

end Outline

/-- A root is written so that it is restored if this is so of its attributes and of the items that
it attaches. -/
theorem Settings.restored_rootCall (settings : Settings) (name : String) {attributes : Fields Term}
    (restored : Term.RestoredEntries attributes) {calls : List Call}
    (attach : Call.AttachItems (Item.Everywhere Item.IsRestored) settings calls) :
    Restored (Instruction.toData { settings.rootCall name attributes with calls }) := by
  refine Instruction.restored_toData (Instruction.restored_factoryCall ?_) ?_
    (Instruction.restored_tag settings.aliasTag name)
  · have isMap := (restored.erase "children").toData
    simp only [List.forall_mem_cons]
    exact ⟨restored_string "root", isMap, List.forall_mem_nil _⟩
  · intro call isCall
    obtain ⟨itemName, item, isRestored, rfl⟩ := attach call isCall
    exact Instruction.restored_addChild itemName (Item.restored_instruction settings _ isRestored)

namespace Outline

variable {settings : Settings} {compiled : Compiled}

/-- The plan of restored data is restored. -/
theorem IsRestored.plan {outline : Outline} (restored : outline.IsRestored)
    (succeeded : outline.compile settings = .ok compiled) : Restored compiled.plan.toData := by
  have distinct : Fields.Distinct compiled.plan := by
    obtain ⟨_, _, _, -, -, -, isPlan, -⟩ := compile_eq_ok_iff.mp succeeded
    rw [isPlan]
    exact Fields.distinct_ofEntries _
  rw [Plan.toData, Fields.mapValues]
  refine Json.restored_of_distinct distinct ?_
  intro entry member
  have isEntry : Plan.IsEntry (Item.Everywhere Item.IsRestored) settings outline entry :=
    isEntry_of_mem_plan succeeded
      (fun menu isMenu raw isRaw _ _ =>
        Item.everywhere_isRestored_of_normalize ((restored.menus menu isMenu).items raw isRaw))
      (fun raw isRaw _ _ =>
        Item.everywhere_isRestored_of_breadcrumb (restored.breadcrumbs raw isRaw)) member
  cases isEntry with
  | @menu name menu _ isMenu attach =>
      exact settings.restored_rootCall name (restored.menus _ isMenu).rootAttributes attach
  | @breadcrumb name _ _ attach =>
      have noAttributes : Term.RestoredEntries [] := ⟨List.nodup_nil, List.forall_mem_nil _⟩
      exact settings.restored_rootCall name noAttributes attach

/-- A text is compiled as the value that it writes. -/
theorem compileText_of_read? {text : String} {root : Data} (isRead : Yaml.read? text = some root) :
    compileText settings text = ofData root >>= compile settings := by
  rw [compileText, parse, isRead]

/-- The plan of a text is restored if all numbers that the text writes are integers. -/
theorem restored_plan_of_compileText {text : String}
    (integral : ∀ root, Yaml.read? text = some root → root.Integral)
    (succeeded : compileText settings text = .ok compiled) : Restored compiled.plan.toData := by
  cases isRead : Yaml.read? text with
  | none =>
      rw [compileText, parse, isRead] at succeeded
      cases succeeded
  | some root =>
      rw [compileText_of_read? isRead] at succeeded
      obtain ⟨outline, isOutline, succeeded⟩ := bind_eq_ok_iff.mp succeeded
      have restored : Restored root :=
        .of_integral (Yaml.distinct_of_read? isRead) (integral root isRead)
      exact (isRestored_of_ofData restored isOutline).plan succeeded

end Outline

end MenuPlan

/-
# The instructions of a plan

A plan consists of roots, one for each menu and each breadcrumb, and of what lies below them. Both
kinds of roots attach the instructions of items, which have been read from data in the grammar, so
every instruction in a plan has one of the shapes that `Instruction.IsRoot` and
`Instruction.IsInner` list. Whoever carries out a plan need not be prepared for anything else.
-/

import MenuPlan.Proofs.Item.Parts
import MenuPlan.Proofs.Plan.Roots

namespace MenuPlan

variable {settings : Settings}

/-- A root that attaches items that name their services has the shape of a root, and its parts are
inner throughout. -/
theorem Settings.isRoot_rootCall (name : String) (attributes : Fields Term) {calls : List Call}
    (attach : Call.AttachItems Item.NamesServices settings calls) :
    Instruction.IsRoot settings name { settings.rootCall name attributes with calls } ∧
      ∀ part, Instruction.IsPart part { settings.rootCall name attributes with calls } →
        Instruction.Throughout (Instruction.IsInner settings) part := by
  have isRoot : Instruction.IsRoot settings name
      { settings.rootCall name attributes with calls } := by
    refine ⟨⟨Fields.erase attributes "children", ?_, rfl⟩, rfl, ?_⟩
    · simp [Fields.names_erase]
    · rw [Instruction.attachesChildren_iff]
      intro call isCall
      obtain ⟨name, item, -, isAdded⟩ := attach call isCall
      exact ⟨name, _, isAdded⟩
  refine ⟨isRoot, ?_⟩
  intro part isPart
  obtain ⟨childName, isCall⟩ := isRoot.onlyAttaches.isPart_iff.mp isPart
  obtain ⟨itemName, item, named, isAdded⟩ := attach _ isCall
  rw [← Call.child_eq_of_addChild_eq isAdded]
  exact Item.throughout_isInner named itemName

namespace Outline

/-- An entry of a plan is the root of a menu or breadcrumb, and its parts are inner throughout. -/
theorem isRoot_of_mem_plan {outline : Outline} {compiled : Compiled}
    (succeeded : outline.compile settings = .ok compiled) {entry : String × Instruction}
    (member : entry ∈ compiled.plan) :
    (∃ name, (name ∈ Fields.names outline.menus ∧ entry.1 = settings.menuKey name ∨
        name ∈ Fields.names outline.breadcrumbs ∧ entry.1 = settings.breadcrumbKey name) ∧
      Instruction.IsRoot settings name entry.2) ∧
    ∀ part, Instruction.IsPart part entry.2 →
      Instruction.Throughout (Instruction.IsInner settings) part := by
  have isEntry : Plan.IsEntry Item.NamesServices settings outline entry :=
    isEntry_of_mem_plan succeeded (fun _ _ _ _ _ _ isItem => .of_normalize isItem)
      (fun _ _ _ _ isBreadcrumb =>
        .of_normalize (Breadcrumb.normalize_eq_ok_iff.mp isBreadcrumb).2.1) member
  cases isEntry with
  | @menu name menu _ isMenu attach =>
      obtain ⟨root, parts⟩ := Settings.isRoot_rootCall name menu.rootAttributes attach
      exact ⟨⟨name, Or.inl ⟨List.mem_map_of_mem isMenu, rfl⟩, root⟩, parts⟩
  | @breadcrumb name _ known attach =>
      obtain ⟨root, parts⟩ := Settings.isRoot_rootCall name [] attach
      exact ⟨⟨name, Or.inr ⟨known, rfl⟩, root⟩, parts⟩

/-- A document with an instruction of every shape, some of them two levels down. -/
def everyShape : Outline where
  menus := [("main", {
    options := [("children", .bool true), ("label", .string "Main")]
    items := [
      ("home", .null),
      ("built", .object [("service", .object [
        ("id", .string "app.menus"), ("method", .string "build"),
        ("parameters", .array [.null])])]),
      ("group", .object [("expression", .string ""), ("children", .object [
        ("shared", .object [("service", .string "app.shared")]),
        ("deeper", .object [("children", .object [
          ("now", .object [("expression", .string "clock()")])])])])])] })]
  breadcrumbs := [("leaf", .object [("parent", .string "top")]), ("top", .null)]

/-- In every plan, an entry has the key of a menu or of a breadcrumb, and it is a root: it makes an
item named `root`, whose attributes have no `children`, it is registered under the name of the menu
or breadcrumb as its alias, and every call attaches a child. Each instruction that lies below it, at
any depth, is a call of a service's method or a reference to a service, where no id or method is
empty; an expression that is not empty; an item whose calls attach its children, one each; or a map
of attributes. Neither `children` nor `expression` is among the attributes of these, and none of
them is registered under a tag. -/
theorem compile_instructions_have_shapes (settings : Settings) (outline : Outline)
    (compiled : Compiled) (succeeded : outline.compile settings = .ok compiled) :
    ∀ entry ∈ compiled.plan,
      (∃ name, (name ∈ Fields.names outline.menus ∧ entry.1 = settings.menuKey name ∨
          name ∈ Fields.names outline.breadcrumbs ∧ entry.1 = settings.breadcrumbKey name) ∧
        Instruction.IsRoot settings name entry.2) ∧
      ∀ part, Instruction.LiesBelow part entry.2 → Instruction.IsInner settings part := by
  intro entry member
  obtain ⟨isRoot, parts⟩ := isRoot_of_mem_plan succeeded member
  exact ⟨isRoot, fun part isBelow => Instruction.of_liesBelow parts isBelow⟩

/-- All entries of the document's plan have these shapes. -/
theorem everyShape_instructions_have_shapes :
    ∃ compiled, everyShape.compile {} = .ok compiled ∧
      Fields.names compiled.plan =
        ["navigation.menu.main", "navigation.breadcrumbs.leaf", "navigation.breadcrumbs.top"] ∧
      ∀ entry ∈ compiled.plan, (∃ name, Instruction.IsRoot {} name entry.2) ∧
        ∀ part, Instruction.LiesBelow part entry.2 → Instruction.IsInner {} part := by
  have isNames : (everyShape.compile {}).map (fun compiled => Fields.names compiled.plan) =
      .ok ["navigation.menu.main", "navigation.breadcrumbs.leaf",
        "navigation.breadcrumbs.top"] := by cbv
  cases succeeded : everyShape.compile {} with
  | error error =>
      rw [succeeded] at isNames
      cases isNames
  | ok compiled =>
      rw [succeeded] at isNames
      refine ⟨compiled, rfl, Except.ok.inj isNames, ?_⟩
      intro entry member
      obtain ⟨⟨name, -, isRoot⟩, below⟩ :=
        compile_instructions_have_shapes {} everyShape compiled succeeded entry member
      exact ⟨⟨name, isRoot⟩, below⟩

end Outline

end MenuPlan

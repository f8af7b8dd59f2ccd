/-
# Documents in short and in long form

Items and breadcrumbs of a document may be replaced by others with the same long form, each one or
only some of them: the compilation has the same outcome. A compilation is a chain of steps that can
fail, and the steps that read items and breadcrumbs are the only ones that see how these are
written. What is remarked on an item is remarked on the item that is read, so the warnings are the
same as well.
-/

import MenuPlan.Plan
import MenuPlan.Proofs.Item.LongForm

namespace MenuPlan

variable {settings : Settings}

/-- The outcome of a step, where the remarks count only if it succeeds. -/
def Outcome.withRaised {α : Type} (outcome : Outcome α) : Except CompileError (α × List Warning) :=
  (·, outcome.raised) <$> outcome.result

/-- What follows a step can make use of its value and of its remarks. -/
theorem Outcome.withRaised_bind {α β : Type} (outcome : Outcome α)
    (next : α × List Warning → Except CompileError β) :
    outcome.withRaised >>= next = outcome.result >>= fun value => next (value, outcome.raised) := by
  rw [withRaised]
  cases outcome.result with
  | error error => rfl
  | ok value => rfl

namespace Menu

/-- The items of a menu are read, built and remarked upon one by one. -/
theorem withRaised_itemCalls_cons (menu name : String) (raw : Data) (rest : List (String × Data)) :
    (itemCalls settings menu ((name, raw) :: rest)).withRaised = (do
      let item ← Item.normalize settings.strictItems (itemLocation menu name) raw
      let later ← (itemCalls settings menu rest).withRaised
      return (.addChild name (item.instruction settings name) :: later.1,
        item.warnings (itemLocation menu name) ++ later.2)) := by
  rw [itemCalls]
  cases Item.normalize settings.strictItems (itemLocation menu name) raw with
  | error error => rfl
  | ok item =>
      rw [ok_bind]
      simp only [Outcome.withRaised]
      cases (itemCalls settings menu rest).result with
      | error error => rfl
      | ok calls => rfl

/-- A menu remarks on its items and on nothing else. -/
theorem withRaised_instruction (name : String) (menu : Menu) :
    (menu.instruction settings name).withRaised =
      (fun calls =>
        ({ settings.rootCall name menu.rootAttributes with calls := calls.1 }, calls.2)) <$>
          (itemCalls settings name menu.items).withRaised := by
  rw [instruction]
  simp only [Outcome.withRaised]
  cases (itemCalls settings name menu.items).result with
  | error error => rfl
  | ok calls => rfl

end Menu

/-- The menus are built one by one. -/
theorem Plan.withRaised_menuEntries_cons (name : String) (menu : Menu)
    (rest : List (String × Menu)) :
    (menuEntries settings ((name, menu) :: rest)).withRaised = (do
      let root ← (menu.instruction settings name).withRaised
      let later ← (menuEntries settings rest).withRaised
      return ((settings.menuKey name, root.1) :: later.1, root.2 ++ later.2)) := by
  rw [menuEntries]
  simp only [Outcome.withRaised]
  cases (menu.instruction settings name).result with
  | error error => rfl
  | ok root =>
      cases (menuEntries settings rest).result with
      | error error => rfl
      | ok later => rfl

/-- A compilation is a chain of three steps. -/
theorem Outline.compile_eq_bind (settings : Settings) (outline : Outline) :
    outline.compile settings = (do
      let menus ← (Plan.menuEntries settings outline.menus).withRaised
      let breadcrumbs ← Plan.readBreadcrumbs settings outline.breadcrumbs
      let trails ← (Trail.linkAll settings breadcrumbs).withRaised
      return {
        plan := Fields.ofEntries (menus.1 ++ Plan.trailEntries settings trails.1)
        warnings := Warning.collect [] menus.2 ++ Warning.collect [] trails.2 }) := by
  rw [compile]
  simp only [Outcome.withRaised_bind]

/-- The data under the same name has the same long form. -/
def Item.SameEntry (raw other : String × Data) : Prop :=
  raw.1 = other.1 ∧ SameLongForm raw.2 other.2

/-- The menus differ at most in how their items are written. -/
structure Menu.SameLongForm (menu other : Menu) : Prop where
  options : menu.options = other.options
  attributes : menu.attributes = other.attributes
  items : List.Forall₂ Item.SameEntry menu.items other.items

/-- The documents differ at most in how items and breadcrumbs are written. -/
structure Outline.SameLongForm (outline other : Outline) : Prop where
  menus : List.Forall₂ (fun menu other => menu.1 = other.1 ∧ menu.2.SameLongForm other.2)
    outline.menus other.menus
  breadcrumbs : List.Forall₂ Item.SameEntry outline.breadcrumbs other.breadcrumbs

/-- The items of a menu have the same calls and remarks. -/
theorem Menu.sameOutcome_itemCalls {menu : String} {items others : List (String × Data)}
    (same : List.Forall₂ Item.SameEntry items others) :
    SameOutcome (itemCalls settings menu items).withRaised
      (itemCalls settings menu others).withRaised := by
  induction same with
  | nil => exact SameOutcome.refl _
  | @cons raw other _ _ sameEntry _ ih =>
      obtain ⟨name, value⟩ := raw
      obtain ⟨_, otherValue⟩ := other
      obtain ⟨rfl, sameValue⟩ := sameEntry
      rw [withRaised_itemCalls_cons, withRaised_itemCalls_cons]
      apply (sameValue.normalize settings.strictItems _).bind
      intro item
      apply ih.bind
      exact fun later => SameOutcome.refl _

/-- A menu becomes the same instruction, with the same remarks. -/
theorem Menu.SameLongForm.instruction {menu other : Menu} (same : menu.SameLongForm other)
    (name : String) :
    SameOutcome (menu.instruction settings name).withRaised
      (other.instruction settings name).withRaised := by
  have sameAttributes : menu.rootAttributes = other.rootAttributes := by
    rw [rootAttributes, rootAttributes, same.options, same.attributes]
  rw [withRaised_instruction, withRaised_instruction, sameAttributes]
  exact (sameOutcome_itemCalls same.items).map _

/-- Menus have the same entries and remarks. -/
theorem Plan.sameOutcome_menuEntries {menus others : Fields Menu}
    (same : List.Forall₂ (fun menu other => menu.1 = other.1 ∧ menu.2.SameLongForm other.2)
      menus others) :
    SameOutcome (menuEntries settings menus).withRaised
      (menuEntries settings others).withRaised := by
  induction same with
  | nil => exact SameOutcome.refl _
  | @cons menu other _ _ sameMenu _ ih =>
      obtain ⟨name, menu⟩ := menu
      obtain ⟨_, otherMenu⟩ := other
      obtain ⟨rfl, sameMenu⟩ := sameMenu
      rw [withRaised_menuEntries_cons, withRaised_menuEntries_cons]
      apply (sameMenu.instruction name).bind
      intro root
      apply ih.bind
      exact fun later => SameOutcome.refl _

/-- Breadcrumbs are the same. -/
theorem Plan.sameOutcome_readBreadcrumbs {breadcrumbs others : Fields Data}
    (same : List.Forall₂ Item.SameEntry breadcrumbs others) :
    SameOutcome (readBreadcrumbs settings breadcrumbs) (readBreadcrumbs settings others) := by
  rw [readBreadcrumbs, readBreadcrumbs]
  induction same with
  | nil => exact SameOutcome.refl _
  | @cons raw other _ _ sameEntry _ ih =>
      obtain ⟨name, value⟩ := raw
      obtain ⟨_, otherValue⟩ := other
      obtain ⟨rfl, sameValue⟩ := sameEntry
      rw [mapM_cons_eq_bind, mapM_cons_eq_bind]
      apply ((Breadcrumb.normalize_of_sameLongForm sameValue settings.strictItems _).bind
        fun breadcrumb => SameOutcome.refl _).bind
      exact fun breadcrumb => ih.map _

namespace Outline

/-- A document in short forms: names in place of records, and null for children, for an item and for
a breadcrumb. -/
def inShortForms : Outline where
  menus := [("main", { items := [
    ("home", .object [("children", .object [
      ("about", .object [("route", .string "about"), ("children", .null)]),
      ("user", .object [("service", .string "app.user"), ("expression", .string "user()")]),
      ("empty", .null)])])] })]
  breadcrumbs := [("leaf", .object [("parent", .string "top"), ("route", .string "leaf")]),
    ("top", .null)]

/-- The document with its item and the first of its breadcrumbs in long form. -/
def partlyInLongForms : Outline where
  menus := [("main", { items := [
    ("home", .object [("children", .object [
      ("about", .object [("route", .object [("name", .string "about")]), ("children", .object [])]),
      ("user", .object [
        ("service", .object [("id", .string "app.user")]), ("expression", .string "user()")]),
      ("empty", .object [])])])] })]
  breadcrumbs := [("leaf", .object [("parent", .string "top"),
    ("route", .object [("name", .string "leaf")])]), ("top", .null)]

/-- Writing out a long form changes nothing. If documents differ at most in how their items and
breadcrumbs are written, in short forms or in long ones at any depth, then both compile to the same
plan with the same warnings, or both fail for the same cause: with errors of one kind that speak of
the same location, of the same parent and child, or of the same name and path. -/
theorem short_forms_compile_like_long_forms :
    (∀ raw, Item.expand (Item.expand raw) = Item.expand raw) ∧
      ∀ (settings : Settings) (outline other : Outline), outline.SameLongForm other →
        SameOutcome (outline.compile settings) (other.compile settings) := by
  refine ⟨Item.expand_expand, ?_⟩
  intro settings outline other same
  rw [compile_eq_bind, compile_eq_bind]
  apply (Plan.sameOutcome_menuEntries same.menus).bind
  intro menus
  apply (Plan.sameOutcome_readBreadcrumbs same.breadcrumbs).bind
  exact fun breadcrumbs => SameOutcome.refl _

/-- The two documents have the same plan and the same warnings, of which there is one. -/
theorem inShortForms_compiles_like_partlyInLongForms :
    inShortForms.SameLongForm partlyInLongForms ∧
      ∃ compiled, inShortForms.compile {} = .ok compiled ∧
        partlyInLongForms.compile {} = .ok compiled ∧ compiled.warnings.length = 1 := by
  have same : inShortForms.SameLongForm partlyInLongForms := by
    refine ⟨.cons ⟨rfl, rfl, rfl, .cons ⟨rfl, rfl⟩ .nil⟩ .nil, ?_⟩
    exact .cons ⟨rfl, rfl⟩ (.cons ⟨rfl, rfl⟩ .nil)
  have isWarned : (inShortForms.compile {}).map (fun compiled => compiled.warnings.length) =
      .ok 1 := by cbv
  have sameOutcome := short_forms_compile_like_long_forms.2 {} inShortForms partlyInLongForms same
  generalize inShortForms.compile {} = first at *
  generalize partlyInLongForms.compile {} = second at *
  cases sameOutcome with
  | ok compiled => exact ⟨same, compiled, rfl, rfl, Except.ok.inj isWarned⟩
  | error cause => cases isWarned

end Outline

end MenuPlan

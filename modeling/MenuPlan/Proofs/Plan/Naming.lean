/-
# The names that a plan is written with

Two of the settings are names and nothing else: what the keys of a plan begin with, and the tag under
which its roots are registered. A compilation reads neither of them. Under other names it reports the
same error, or it succeeds with the same warnings and with a plan that goes side by side with the
first one: every entry has a counterpart at its place, which differs in the beginning of its key and
in the name of its tag.

The two compilations are compared step by step. A relation between values is carried through a chain
of steps that can fail, where failing means failing with one error on both sides.
-/

import MenuPlan.Proofs.Item.Strictness
import MenuPlan.Proofs.Plan.Entries
import MenuPlan.Proofs.Plan.LongForm

namespace MenuPlan

/-- Both steps fail with the same error, or both succeed with related values. -/
inductive SideBySide {ε α β : Type} (R : α → β → Prop) : Except ε α → Except ε β → Prop where
  | error (error : ε) : SideBySide R (.error error) (.error error)
  | ok {value : α} {other : β} (related : R value other) : SideBySide R (.ok value) (.ok other)

namespace SideBySide

variable {ε α β γ δ : Type} {R : α → β → Prop} {S : γ → δ → Prop} {first : Except ε α}
  {second : Except ε β}

/-- The same step on both sides. -/
theorem refl (step : Except ε α) : SideBySide Eq step step := by
  cases step with
  | error error => exact .error error
  | ok value => exact .ok rfl

theorem bind (both : SideBySide R first second) {next : α → Except ε γ} {other : β → Except ε δ}
    (later : ∀ value counterpart, R value counterpart →
      SideBySide S (next value) (other counterpart)) :
    SideBySide S (first >>= next) (second >>= other) := by
  cases both with
  | error error => exact .error error
  | ok related => exact later _ _ related

theorem map (both : SideBySide R first second) {f : α → γ} {g : β → δ}
    (each : ∀ value counterpart, R value counterpart → S (f value) (g counterpart)) :
    SideBySide S (f <$> first) (g <$> second) := by
  cases both with
  | error error => exact .error error
  | ok related => exact .ok (each _ _ related)

end SideBySide

namespace Fields

variable {α β : Type} {R : String × α → String × β → Prop} {fields : Fields α} {others : Fields β}

/-- Entries that are side by side are inserted at the same place, if the relation tells whether two
names are the same. -/
theorem forall₂_insert (sameNames : ∀ first second other counterpart, R first other →
      R second counterpart → (first.1 = second.1 ↔ other.1 = counterpart.1))
    (each : List.Forall₂ R fields others) {entry : String × α} {counterpart : String × β}
    (related : R entry counterpart) :
    List.Forall₂ R (insert fields entry.1 entry.2) (insert others counterpart.1 counterpart.2) := by
  induction each with
  | nil => exact .cons related .nil
  | @cons first other rest restOther isFirst isRest ih =>
      obtain ⟨name, value⟩ := first
      obtain ⟨otherName, otherValue⟩ := other
      have same := sameNames _ _ _ _ isFirst related
      rw [insert, insert]
      by_cases isName : name = entry.1
      · rw [if_pos isName, if_pos (same.mp isName), isName, show otherName = counterpart.1 from
          same.mp isName]
        exact .cons related isRest
      · rw [if_neg isName, if_neg (fun isOther => isName (same.mpr isOther))]
        exact .cons isFirst ih

/-- So are whole lists of entries. -/
theorem forall₂_overlay (sameNames : ∀ first second other counterpart, R first other →
      R second counterpart → (first.1 = second.1 ↔ other.1 = counterpart.1))
    (each : List.Forall₂ R fields others) {entries : Fields α} {counterparts : Fields β}
    (related : List.Forall₂ R entries counterparts) :
    List.Forall₂ R (overlay fields entries) (overlay others counterparts) := by
  induction related generalizing fields others with
  | nil => exact each
  | cons isFirst _ ih => exact ih (forall₂_insert sameNames each isFirst)

end Fields

variable (settings : Settings) (keySpace aliasTag : String)

namespace Settings

/-- The same settings, with other names to write a plan with. -/
def withNames : Settings :=
  { settings with keySpace, aliasTag }

@[simp] theorem withNames_strictItems :
    (settings.withNames keySpace aliasTag).strictItems = settings.strictItems := rfl

/-- A root has one tag, which holds the alias. -/
theorem rootCall_tags (name : String) (attributes : Fields Term) :
    (settings.rootCall name attributes).tags = [(settings.aliasTag, [[("alias", name)]])] := rfl

end Settings

/-- What an item becomes does not depend on the names. -/
@[simp] theorem Item.instruction_withNames (name : String) (item : Item) :
    item.instruction (settings.withNames keySpace aliasTag) name =
      item.instruction settings name := by
  have same : settings.SameObjects (settings.withNames keySpace aliasTag) := ⟨rfl, rfl, rfl⟩
  exact instruction_eq_of_sameObjects same name item

/-- Nor does what the items of a menu become. -/
theorem Menu.itemCalls_withNames (menu : String) (items : List (String × Data)) :
    itemCalls (settings.withNames keySpace aliasTag) menu items = itemCalls settings menu items := by
  induction items with
  | nil => rfl
  | cons raw rest ih =>
      rw [itemCalls, itemCalls, ih]
      simp only [Settings.withNames_strictItems, Item.instruction_withNames]

namespace Plan

/-- An entry of a plan under the names of one setting and its counterpart under those of another:
the same menu or breadcrumb behind the beginning of the key, the same object with the same calls,
and the same entries under the only tag. -/
structure IsCounterpart (settings other : Settings) (entry counterpart : String × Instruction) :
    Prop where
  key : ∃ name, entry.1 = settings.menuKey name ∧ counterpart.1 = other.menuKey name ∨
    entry.1 = settings.breadcrumbKey name ∧ counterpart.1 = other.breadcrumbKey name
  origin : counterpart.2.origin = entry.2.origin
  calls : counterpart.2.calls = entry.2.calls
  tags : ∃ aliases, entry.2.tags = [(settings.aliasTag, aliases)] ∧
    counterpart.2.tags = [(other.aliasTag, aliases)]

/-- Counterparts tell whether two keys are the same. -/
theorem IsCounterpart.same_keys {settings other : Settings}
    {first second counterpart counterpartSecond : String × Instruction}
    (isFirst : IsCounterpart settings other first counterpart)
    (isSecond : IsCounterpart settings other second counterpartSecond) :
    first.1 = second.1 ↔ counterpart.1 = counterpartSecond.1 := by
  obtain ⟨name, ⟨isKey, isOtherKey⟩ | ⟨isKey, isOtherKey⟩⟩ := isFirst.key
  · obtain ⟨nameSecond, ⟨isKeySecond, isOtherKeySecond⟩ | ⟨isKeySecond, isOtherKeySecond⟩⟩ :=
      isSecond.key
    · rw [isKey, isKeySecond, isOtherKey, isOtherKeySecond, Settings.menuKey_inj,
        Settings.menuKey_inj]
    · rw [isKey, isKeySecond, isOtherKey, isOtherKeySecond]
      exact iff_of_false (settings.menuKey_ne_breadcrumbKey _ _)
        (other.menuKey_ne_breadcrumbKey _ _)
  · obtain ⟨nameSecond, ⟨isKeySecond, isOtherKeySecond⟩ | ⟨isKeySecond, isOtherKeySecond⟩⟩ :=
      isSecond.key
    · rw [isKey, isKeySecond, isOtherKey, isOtherKeySecond]
      exact iff_of_false (settings.menuKey_ne_breadcrumbKey _ _).symm
        (other.menuKey_ne_breadcrumbKey _ _).symm
    · rw [isKey, isKeySecond, isOtherKey, isOtherKeySecond, Settings.breadcrumbKey_inj,
        Settings.breadcrumbKey_inj]

end Plan

open Plan (IsCounterpart)

variable {settings keySpace aliasTag}

/-- What has been made of menus, with the remarks: entries side by side, the same remarks. -/
def Plan.AreCounterparts (settings other : Settings)
    (made counterpart : Fields Instruction × List Warning) : Prop :=
  List.Forall₂ (IsCounterpart settings other) made.1 counterpart.1 ∧ counterpart.2 = made.2

/-- A menu becomes the same root under another tag. -/
theorem Menu.sideBySide_instruction (name : String) (menu : Menu) :
    SideBySide (fun root other =>
        IsCounterpart settings (settings.withNames keySpace aliasTag)
          (settings.menuKey name, root.1)
          ((settings.withNames keySpace aliasTag).menuKey name, other.1) ∧ other.2 = root.2)
      (menu.instruction settings name).withRaised
      (menu.instruction (settings.withNames keySpace aliasTag) name).withRaised := by
  rw [withRaised_instruction, withRaised_instruction, itemCalls_withNames]
  apply (SideBySide.refl _).map
  rintro calls _ rfl
  refine ⟨⟨⟨name, Or.inl ⟨rfl, rfl⟩⟩, rfl, rfl, ?_⟩, rfl⟩
  exact ⟨_, settings.rootCall_tags name _, Settings.rootCall_tags _ name _⟩

/-- The entries of menus are side by side. -/
theorem Plan.sideBySide_menuEntries (menus : Fields Menu) :
    SideBySide (AreCounterparts settings (settings.withNames keySpace aliasTag))
      (menuEntries settings menus).withRaised
      (menuEntries (settings.withNames keySpace aliasTag) menus).withRaised := by
  induction menus with
  | nil => exact .ok ⟨.nil, rfl⟩
  | cons menu rest ih =>
      obtain ⟨name, menu⟩ := menu
      rw [withRaised_menuEntries_cons, withRaised_menuEntries_cons]
      apply (menu.sideBySide_instruction name).bind
      rintro root other ⟨isRoot, sameRemarks⟩
      apply ih.bind
      rintro later otherLater ⟨areLater, sameLater⟩
      exact .ok ⟨.cons isRoot areLater, by rw [sameRemarks, sameLater]⟩

namespace Trail

/-- Trails are linked one by one. -/
theorem withRaised_linkEntries_cons (settings : Settings) (all : Fields Breadcrumb) (name : String)
    (breadcrumb : Breadcrumb) (rest : List (String × Breadcrumb)) :
    (linkEntries settings all ((name, breadcrumb) :: rest)).withRaised = (do
      let trail ← (link settings all name breadcrumb).withRaised
      let later ← (linkEntries settings all rest).withRaised
      return ((name, trail.1) :: later.1, trail.2 ++ later.2)) := by
  rw [linkEntries]
  simp only [Outcome.withRaised]
  cases (link settings all name breadcrumb).result with
  | error error => rfl
  | ok trail =>
      cases (linkEntries settings all rest).result with
      | error error => rfl
      | ok later => rfl

/-- A path becomes the same trail under another tag. -/
theorem isCounterpart_ofPath (name : String) (path : List (String × Breadcrumb)) :
    IsCounterpart settings (settings.withNames keySpace aliasTag)
      (settings.breadcrumbKey name, ofPath settings name path)
      ((settings.withNames keySpace aliasTag).breadcrumbKey name,
        ofPath (settings.withNames keySpace aliasTag) name path) := by
  refine ⟨⟨name, Or.inr ⟨rfl, rfl⟩⟩, rfl, ?_, ?_⟩
  · simp only [ofPath, Item.instruction_withNames]
  · exact ⟨_, settings.rootCall_tags name _, Settings.rootCall_tags _ name _⟩

/-- A climb does not depend on the names, and so a breadcrumb becomes the same trail. -/
theorem sideBySide_link (all : Fields Breadcrumb) (name : String) (breadcrumb : Breadcrumb) :
    SideBySide (fun trail other =>
        IsCounterpart settings (settings.withNames keySpace aliasTag)
          (settings.breadcrumbKey name, trail.1)
          ((settings.withNames keySpace aliasTag).breadcrumbKey name, other.1) ∧ other.2 = trail.2)
      (link settings all name breadcrumb).withRaised
      (link (settings.withNames keySpace aliasTag) all name breadcrumb).withRaised := by
  rw [link, link]
  cases climbFrom all name breadcrumb with
  | mk path obstacle =>
      cases obstacle with
      | none => exact .ok ⟨isCounterpart_ofPath name path, rfl⟩
      | some obstacle => exact .error obstacle

/-- The entries of trails are side by side. -/
theorem sideBySide_linkEntries (all : Fields Breadcrumb) (entries : List (String × Breadcrumb)) :
    SideBySide (fun trails others =>
        Plan.AreCounterparts settings (settings.withNames keySpace aliasTag)
          (Plan.trailEntries settings trails.1, trails.2)
          (Plan.trailEntries (settings.withNames keySpace aliasTag) others.1, others.2))
      (linkEntries settings all entries).withRaised
      (linkEntries (settings.withNames keySpace aliasTag) all entries).withRaised := by
  induction entries with
  | nil => exact .ok ⟨.nil, rfl⟩
  | cons entry rest ih =>
      obtain ⟨name, breadcrumb⟩ := entry
      rw [withRaised_linkEntries_cons, withRaised_linkEntries_cons]
      apply (sideBySide_link all name breadcrumb).bind
      rintro trail other ⟨isTrail, sameRemarks⟩
      apply ih.bind
      rintro later otherLater ⟨areLater, sameLater⟩
      refine .ok ⟨.cons isTrail areLater, ?_⟩
      change other.2 ++ otherLater.2 = trail.2 ++ later.2
      rw [sameRemarks, show otherLater.2 = later.2 from sameLater]

end Trail

namespace Outline

/-- Names of a plan are of no account but for themselves. Under another beginning of keys and another
tag, a document has the same error; or it has the same warnings and a plan of the same length, entry
by entry: the keys differ in their beginnings, and the instructions in nothing but the name of the
only tag of the root. -/
theorem compile_under_other_names (settings : Settings) (keySpace aliasTag : String)
    (outline : Outline) :
    (∃ error, outline.compile settings = .error error ∧
      outline.compile { settings with keySpace, aliasTag } = .error error) ∨
    ∃ compiled other, outline.compile settings = .ok compiled ∧
      outline.compile { settings with keySpace, aliasTag } = .ok other ∧
      other.warnings = compiled.warnings ∧
      List.Forall₂ (IsCounterpart settings { settings with keySpace, aliasTag })
        compiled.plan other.plan := by
  have both : SideBySide (fun compiled other => other.warnings = compiled.warnings ∧
      List.Forall₂ (IsCounterpart settings (settings.withNames keySpace aliasTag))
        compiled.plan other.plan)
      (outline.compile settings) (outline.compile (settings.withNames keySpace aliasTag)) := by
    rw [compile_eq_bind, compile_eq_bind]
    apply (Plan.sideBySide_menuEntries outline.menus).bind
    rintro menus otherMenus ⟨areMenus, sameMenuRemarks⟩
    apply (SideBySide.refl (Plan.readBreadcrumbs settings outline.breadcrumbs)).bind
    rintro breadcrumbs _ rfl
    apply (Trail.sideBySide_linkEntries breadcrumbs breadcrumbs).bind
    rintro trails otherTrails ⟨areTrails, sameTrailRemarks⟩
    have sameKeys : ∀ first second other counterpart,
        IsCounterpart settings (settings.withNames keySpace aliasTag) first other →
        IsCounterpart settings (settings.withNames keySpace aliasTag) second counterpart →
        (first.1 = second.1 ↔ other.1 = counterpart.1) :=
      fun _ _ _ _ isFirst isSecond => isFirst.same_keys isSecond
    refine .ok ⟨?_, Fields.forall₂_overlay sameKeys .nil (List.rel_append areMenus areTrails)⟩
    rw [sameMenuRemarks, show otherTrails.2 = trails.2 from sameTrailRemarks]
  generalize isCompiled : outline.compile settings = compiled at both
  generalize isOther : outline.compile (settings.withNames keySpace aliasTag) = other at both
  cases both with
  | error error => exact Or.inl ⟨error, rfl, isOther⟩
  | ok related => exact Or.inr ⟨_, _, rfl, isOther, related⟩

end Outline

end MenuPlan

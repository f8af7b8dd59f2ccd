/-
# Lenient compilations extend strict ones

Strictness is a matter of reading only. Where a strict grammar refuses no part of a document, a
lenient one reads the same items and breadcrumbs, and everything that is made of them is the same:
the plan, the remarks, and also the error of linking. So the two compilations differ only where the
strict one refuses something, which it reports as invalid.

In the other direction a strict compilation succeeds where a lenient one does if the document has
known keys only.
-/

import MenuPlan.Proofs.Item.Strictness
import MenuPlan.Proofs.Plan.Failure

namespace MenuPlan

variable {settings : Settings}

namespace Trail

/-- What a path becomes does not depend on the grammar. -/
theorem ofPath_withStrict (settings : Settings) (strict : Bool) (name : String)
    (path : List (String × Breadcrumb)) :
    ofPath (settings.withStrict strict) name path = ofPath settings name path := by
  simp only [ofPath, Item.instruction_withStrict, Settings.rootCall_withStrict]

/-- Linking does not depend on the grammar. -/
theorem linkAll_withStrict (settings : Settings) (strict : Bool) (all : Fields Breadcrumb) :
    linkAll (settings.withStrict strict) all = linkAll settings all := by
  have sameLink : ∀ name breadcrumb,
      link (settings.withStrict strict) all name breadcrumb = link settings all name breadcrumb := by
    intro name breadcrumb
    simp only [link, ofPath_withStrict]
  have sameEntries : ∀ entries, linkEntries (settings.withStrict strict) all entries =
      linkEntries settings all entries := by
    intro entries
    induction entries with
    | nil => rfl
    | cons entry rest ih =>
        rw [linkEntries, linkEntries, sameLink, ih]
  exact sameEntries all

end Trail

/-- The items of a menu that none is refused of in a strict grammar are the same in a lenient one. -/
theorem Menu.itemCalls_lenient {menu : String} {items : List (String × Data)}
    (accepted : ∀ raw ∈ items, ¬ RefusesItem (settings.withStrict true) menu raw) :
    itemCalls (settings.withStrict false) menu items =
      itemCalls (settings.withStrict true) menu items := by
  induction items with
  | nil => rfl
  | cons raw rest ih =>
      obtain ⟨first, later⟩ := List.forall_mem_cons.mp accepted
      obtain ⟨item, isItem⟩ := exists_ok_iff.mpr first
      rw [Settings.withStrict_strictItems] at isItem
      have isLenient := (Item.normalize_strict_eq_ok_iff.mp isItem).1
      rw [itemCalls, itemCalls, ih later]
      simp only [Settings.withStrict_strictItems, isItem, isLenient, Item.instruction_withStrict]

/-- Menus without refused items in a strict grammar are the same in a lenient one. -/
theorem Plan.menuEntries_lenient {menus : Fields Menu}
    (accepted : ∀ menu ∈ menus, ∀ raw ∈ menu.2.items,
      ¬ Menu.RefusesItem (settings.withStrict true) menu.1 raw) :
    menuEntries (settings.withStrict false) menus =
      menuEntries (settings.withStrict true) menus := by
  induction menus with
  | nil => rfl
  | cons menu rest ih =>
      obtain ⟨first, later⟩ := List.forall_mem_cons.mp accepted
      have sameRoot : menu.2.instruction (settings.withStrict false) menu.1 =
          menu.2.instruction (settings.withStrict true) menu.1 := by
        simp only [Menu.instruction, Menu.itemCalls_lenient first, Settings.rootCall_withStrict]
      rw [menuEntries, menuEntries, sameRoot, ih later]
      rfl

/-- Breadcrumbs that are accepted in a strict grammar are the same in a lenient one. -/
theorem Plan.readBreadcrumbs_lenient {raw : Fields Data}
    (accepted : ∀ entry ∈ raw, ¬ Breadcrumb.IsRefused (settings.withStrict true) entry) :
    readBreadcrumbs (settings.withStrict false) raw =
      readBreadcrumbs (settings.withStrict true) raw := by
  obtain ⟨breadcrumbs, isRead⟩ := exists_readBreadcrumbs_iff.mpr accepted
  rw [isRead, readBreadcrumbs_eq_ok_iff]
  apply (readBreadcrumbs_eq_ok_iff.mp isRead).imp
  rintro entry read ⟨isName, isBreadcrumb⟩
  exact ⟨isName, (Breadcrumb.normalize_strict_eq_ok_iff.mp isBreadcrumb).1⟩

/-- A strict grammar accepts the items that a lenient one accepts and that have known keys. -/
theorem Menu.not_refusesItem_strict_iff {menu : String} {raw : String × Data} :
    ¬ RefusesItem (settings.withStrict true) menu raw ↔
      ¬ RefusesItem (settings.withStrict false) menu raw ∧
        Item.HasKnownKeys Item.knownKeys raw.2 := by
  rw [RefusesItem, RefusesItem, ← exists_ok_iff, ← exists_ok_iff]
  simp only [Settings.withStrict_strictItems, Item.normalize_strict_eq_ok_iff, exists_and_right]

/-- A strict grammar accepts the breadcrumbs that a lenient one accepts and that have known keys. -/
theorem Breadcrumb.not_isRefused_strict_iff {raw : String × Data} :
    ¬ IsRefused (settings.withStrict true) raw ↔
      ¬ IsRefused (settings.withStrict false) raw ∧
        Item.HasKnownKeys (Item.knownKeys ++ ["parent"]) raw.2 := by
  rw [IsRefused, IsRefused, ← exists_ok_iff, ← exists_ok_iff]
  simp only [Settings.withStrict_strictItems, normalize_strict_eq_ok_iff, exists_and_right]

namespace Outline

variable {outline : Outline}

/-- The grammar accepts all items and breadcrumbs of the document. -/
structure IsAccepted (settings : Settings) (outline : Outline) : Prop where
  items : ∀ menu ∈ outline.menus, ∀ raw ∈ menu.2.items, ¬ Menu.RefusesItem settings menu.1 raw
  breadcrumbs : ∀ raw ∈ outline.breadcrumbs, ¬ Breadcrumb.IsRefused settings raw

/-- A document that is accepted in a strict grammar is compiled in the same way with a lenient
one. -/
theorem IsAccepted.compile_lenient (accepted : outline.IsAccepted (settings.withStrict true)) :
    outline.compile (settings.withStrict false) = outline.compile (settings.withStrict true) := by
  simp only [compile, Plan.menuEntries_lenient accepted.items,
    Plan.readBreadcrumbs_lenient accepted.breadcrumbs, Trail.linkAll_withStrict]
  rfl

/-- What is refused is reported as invalid. -/
theorem isAccepted_of_compile
    (valid : ∀ location detail, outline.compile settings ≠ .error (.validation location detail)) :
    outline.IsAccepted settings := by
  have items : ∀ menu ∈ outline.menus, ¬ Menu.HasRefusedItem settings menu := by
    intro menu member hasRefused
    obtain ⟨first, isFirst⟩ := exists_isFirst_iff.mpr ⟨menu, member, hasRefused⟩
    obtain ⟨raw, firstItem⟩ := exists_isFirst_iff.mpr isFirst.1
    obtain ⟨error, refused⟩ := firstItem.1
    obtain ⟨detail, rfl⟩ := Item.normalize_eq_error refused
    exact valid _ _ (compile_eq_error_iff_failsWith.mpr (.item isFirst firstItem refused))
  constructor
  · intro menu member raw isItem refused
    exact items menu member ⟨raw, isItem, refused⟩
  · intro raw member refused
    obtain ⟨first, isFirst⟩ := exists_isFirst_iff.mpr ⟨raw, member, refused⟩
    obtain ⟨error, refused⟩ := isFirst.1
    obtain ⟨detail, rfl⟩ := Breadcrumb.normalize_eq_error refused
    exact valid _ _ (compile_eq_error_iff_failsWith.mpr (.breadcrumb items isFirst refused))

/-- No item of a menu and no breadcrumb has an unknown key, at any depth. Only the breadcrumbs
themselves may name a parent. -/
structure HasKnownKeys (outline : Outline) : Prop where
  items : ∀ menu ∈ outline.menus, ∀ raw ∈ menu.2.items, Item.HasKnownKeys Item.knownKeys raw.2
  breadcrumbs : ∀ raw ∈ outline.breadcrumbs,
    Item.HasKnownKeys (Item.knownKeys ++ ["parent"]) raw.2

/-- A strict grammar accepts the documents that a lenient one accepts and that have known keys. -/
theorem isAccepted_strict_iff :
    outline.IsAccepted (settings.withStrict true) ↔
      outline.IsAccepted (settings.withStrict false) ∧ outline.HasKnownKeys := by
  constructor
  · rintro ⟨items, breadcrumbs⟩
    have eachItem := fun menu member raw isItem =>
      Menu.not_refusesItem_strict_iff.mp (items menu member raw isItem)
    have eachBreadcrumb := fun raw member =>
      Breadcrumb.not_isRefused_strict_iff.mp (breadcrumbs raw member)
    exact ⟨⟨fun menu member raw isItem => (eachItem menu member raw isItem).1,
        fun raw member => (eachBreadcrumb raw member).1⟩,
      ⟨fun menu member raw isItem => (eachItem menu member raw isItem).2,
        fun raw member => (eachBreadcrumb raw member).2⟩⟩
  · rintro ⟨accepted, known⟩
    constructor
    · intro menu member raw isItem
      exact Menu.not_refusesItem_strict_iff.mpr
        ⟨accepted.items menu member raw isItem, known.items menu member raw isItem⟩
    · intro raw member
      exact Breadcrumb.not_isRefused_strict_iff.mpr
        ⟨accepted.breadcrumbs raw member, known.breadcrumbs raw member⟩

/-- A document with an unknown key on an item below an item. -/
def strayBelow : Outline where
  menus := [("main", { items := [("home", Item.strayKey)] })]

/-- A document without unknown keys where a breadcrumb is its own parent. -/
def ownParent : Outline where
  menus := [("main", { items := [("home", .object [("route", .string "home")])] })]
  breadcrumbs := [("home", .object [("label", .null), ("parent", .string "home")])]

/-- A lenient compilation extends the strict one: unless the strict one reports something invalid,
both have the same result, be it a plan with its warnings or an error. And the strict compilation
succeeds exactly where the lenient one does on a document with known keys, with the same plan and
the same warnings. -/
theorem compile_lenient_extends_strict (settings : Settings) (outline : Outline) :
    (∀ result, outline.compile { settings with strictItems := true } = result →
        (∀ location detail, result ≠ .error (.validation location detail)) →
      outline.compile { settings with strictItems := false } = result) ∧
      ∀ compiled, outline.compile { settings with strictItems := true } = .ok compiled ↔
        outline.compile { settings with strictItems := false } = .ok compiled ∧
          outline.HasKnownKeys := by
  change (∀ result, outline.compile (settings.withStrict true) = result → _ →
      outline.compile (settings.withStrict false) = result) ∧
    ∀ compiled, outline.compile (settings.withStrict true) = .ok compiled ↔
      outline.compile (settings.withStrict false) = .ok compiled ∧ outline.HasKnownKeys
  constructor
  · rintro result rfl valid
    exact (isAccepted_of_compile valid).compile_lenient
  · intro compiled
    constructor
    · intro succeeded
      have accepted : outline.IsAccepted (settings.withStrict true) :=
        isAccepted_of_compile (by rw [succeeded]; nofun)
      rw [accepted.compile_lenient]
      exact ⟨succeeded, (isAccepted_strict_iff.mp accepted).2⟩
    · rintro ⟨succeeded, known⟩
      have lenient : outline.IsAccepted (settings.withStrict false) :=
        isAccepted_of_compile (by rw [succeeded]; nofun)
      rw [← (isAccepted_strict_iff.mpr ⟨lenient, known⟩).compile_lenient]
      exact succeeded

/-- The unknown key below sets the compilations apart, and the breadcrumb that is its own parent is
reported by both. -/
theorem strayBelow_ownParent_lenient_extends_strict :
    (∃ compiled, strayBelow.compile { strictItems := false } = .ok compiled) ∧
      ¬ strayBelow.HasKnownKeys ∧
      ownParent.compile { strictItems := true } =
        .error (.circularReference "home" ["home"]) ∧
      ownParent.compile { strictItems := false } =
        .error (.circularReference "home" ["home"]) := by
  have stray := (compile_lenient_extends_strict {} strayBelow).2
  have looping := (compile_lenient_extends_strict {} ownParent).1
  have strictFails : (strayBelow.compile { strictItems := true }).isOk = false := by rfl
  have lenientSucceeds : (strayBelow.compile { strictItems := false }).isOk = true := by cbv
  have reported : ownParent.compile { strictItems := true } =
      .error (.circularReference "home" ["home"]) := by cbv
  cases succeeded : strayBelow.compile { strictItems := false } with
  | error error =>
      rw [succeeded] at lenientSucceeds
      cases lenientSucceeds
  | ok compiled =>
      refine ⟨⟨compiled, rfl⟩, ?_, reported, looping _ reported ?_⟩
      · intro known
        rw [(stray compiled).mpr ⟨succeeded, known⟩] at strictFails
        cases strictFails
      · intro location detail same
        cases same

end Outline

end MenuPlan

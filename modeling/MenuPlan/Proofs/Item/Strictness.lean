/-
# What a strict grammar asks for in addition

A strict grammar and a lenient one judge the known keys alike, and differ only on the unknown ones,
at the top and in the items below. So a strict grammar accepts exactly what a lenient one accepts
and what has known keys only. Reading an accepted item does not depend on the grammar, and what an
item becomes does not depend on it either.

Routes and services have members of their own, on which both grammars agree; `HasKnownKeys` does not
look into them.
-/

import MenuPlan.Item.Instruction
import MenuPlan.Proofs.Item.Reading

namespace MenuPlan

namespace Item

/-- The keys of the data are among those given, and the keys of the items below it are known, at any
depth. What is not an object has no keys. -/
inductive HasKnownKeys : List String → Data → Prop where
  | intro {known : List String} {raw : Data}
      (own : ∀ members, raw = .object members → ∀ entry ∈ members, entry.1 ∈ known)
      (below : ∀ members entries, raw = .object members → ("children", .object entries) ∈ members →
        ∀ entry ∈ entries, HasKnownKeys knownKeys entry.2) :
      HasKnownKeys known raw

theorem hasKnownKeys_null (known : List String) : HasKnownKeys known .null := by
  constructor
  · intro members isObject
    cases isObject
  · intro members entries isObject
    cases isObject

/-- An object has known keys if each of its members has, with the items below it. -/
theorem hasKnownKeys_object_iff {known : List String} {members : Fields Data} :
    HasKnownKeys known (.object members) ↔
      ∀ entry ∈ members, entry.1 ∈ known ∧ ∀ entries, entry = ("children", .object entries) →
        ∀ child ∈ entries, HasKnownKeys knownKeys child.2 := by
  constructor
  · rintro ⟨own, below⟩ entry member
    refine ⟨own members rfl entry member, ?_⟩
    rintro entries rfl
    exact below members entries rfl member
  · intro each
    constructor
    · rintro _ ⟨⟩ entry member
      exact (each entry member).1
    · rintro _ entries ⟨⟩ member
      exact (each _ member).2 entries rfl

end Item

namespace Grammar

open Item (HasKnownKeys knownKeys)

/-- The list gives a shape to the known names and to no others, and items are below `children`. -/
structure Lists (keys : List (String × Shape)) (known : List String) : Prop where
  isSome_lookup_iff : ∀ name, (keys.lookup name).isSome ↔ name ∈ known
  lookup_eq_children_iff : ∀ name, keys.lookup name = some .children ↔ name = "children"

/-- The grammar of items lists the known keys. -/
theorem lists_itemKeys : Lists itemKeys knownKeys where
  isSome_lookup_iff name := by
    have sameKeys : (itemKeys.map Prod.fst).Perm knownKeys := by decide
    exact Fields.lookup_isSome_iff.trans sameKeys.mem_iff
  lookup_eq_children_iff name := by
    have onlyChildren : ∀ entry ∈ itemKeys, entry.2 = .children → entry.1 = "children" := by
      simp only [itemKeys, List.forall_mem_cons]
      simp [optionalText, map, reference]
    constructor
    · intro found
      exact onlyChildren (name, .children) (Fields.mem_of_lookup_eq_some found) rfl
    · rintro rfl
      rfl

/-- The grammar of breadcrumbs lists the parent as well. -/
theorem lists_breadcrumbKeys :
    Lists (itemKeys ++ [("parent", optionalText)]) (knownKeys ++ ["parent"]) where
  isSome_lookup_iff name := by
    rw [List.lookup_append, Option.isSome_or, Bool.or_eq_true, lists_itemKeys.isSome_lookup_iff,
      List.mem_append, List.lookup_isSome_iff]
    simp
  lookup_eq_children_iff name := by
    rw [List.lookup_append, Option.or_eq_some_iff, lists_itemKeys.lookup_eq_children_iff,
      Shape.lookup_cons_eq_some_iff]
    simp [optionalText]

variable {keys below : List (String × Shape)} {name : String} {value : Data}

/-- A strict grammar finds no fault with the value of a key exactly if a lenient one finds none, the
key is known, and the items below have what a strict grammar asks for in addition. -/
theorem keyFault?_strict_eq_none_iff {shape? : Option Shape} {Extra : Data → Prop}
    (each : ∀ entries, shape? = some .children → value = .object entries → ∀ entry ∈ entries,
      (itemFault? true below below entry.2 = none ↔
        itemFault? false below below entry.2 = none ∧ Extra entry.2)) :
    keyFault? true below name shape? value = none ↔
      keyFault? false below name shape? value = none ∧ shape?.isSome ∧
        ∀ entries, shape? = some .children → value = .object entries →
          ∀ entry ∈ entries, Extra entry.2 := by
  cases shape? with
  | none => simp [keyFault?_none_eq_none_iff]
  | some shape =>
      by_cases isChildren : shape = .children
      · subst isChildren
        rw [keyFault?_children_eq_none_iff, keyFault?_children_eq_none_iff]
        constructor
        · rintro (rfl | ⟨entries, rfl, strict⟩)
          · exact ⟨Or.inl rfl, rfl, nofun⟩
          · have both := fun entry member => (each entries rfl rfl entry member).mp (strict entry member)
            refine ⟨Or.inr ⟨entries, rfl, fun entry member => (both entry member).1⟩, rfl, ?_⟩
            rintro _ - ⟨⟩ entry member
            exact (both entry member).2
        · rintro ⟨rfl | ⟨entries, rfl, lenient⟩, -, extra⟩
          · exact Or.inl rfl
          · refine Or.inr ⟨entries, rfl, ?_⟩
            intro entry member
            exact (each entries rfl rfl entry member).mpr
              ⟨lenient entry member, extra entries rfl rfl entry member⟩
      · rw [keyFault?_some_eq_none_iff isChildren, keyFault?_some_eq_none_iff isChildren]
        simp [isChildren]

/-- A strict grammar finds no fault exactly if a lenient one finds none and all keys are known. -/
theorem itemFault?_strict_eq_none_iff {known : List String} (lists : Lists keys known)
    (raw : Data) :
    itemFault? true keys itemKeys raw = none ↔
      itemFault? false keys itemKeys raw = none ∧ HasKnownKeys known raw := by
  induction raw using Data.itemInduction generalizing keys known with
  | step raw ih =>
    cases raw with
    | object members =>
        rw [itemFault?_object_eq_none_iff, itemFault?_object_eq_none_iff,
          Item.hasKnownKeys_object_iff, ← forall₂_and]
        apply forall₂_congr
        rintro ⟨name, value⟩ member
        have each : ∀ entries, keys.lookup name = some .children → value = .object entries →
            ∀ entry ∈ entries, (itemFault? true itemKeys itemKeys entry.2 = none ↔
              itemFault? false itemKeys itemKeys entry.2 = none ∧
                HasKnownKeys knownKeys entry.2) := by
          rintro entries isChildren rfl entry inEntries
          have isName := (lists.lookup_eq_children_iff name).mp isChildren
          subst isName
          exact ih members entries rfl member entry inEntries lists_itemKeys
        rw [keyFault?_strict_eq_none_iff each, lists.isSome_lookup_iff,
          lists.lookup_eq_children_iff]
        simp only [Prod.mk.injEq, and_imp]
    | null =>
        rw [itemFault?, itemFault?]
        exact iff_of_true rfl ⟨rfl, Item.hasKnownKeys_null known⟩
    | bool _ | number _ | string _ | array _ =>
        apply iff_of_false
        · simp [itemFault?]
        · simp [itemFault?]

end Grammar

namespace Item

/-- Data passes a strict check exactly if it passes a lenient one and has known keys. -/
theorem check_strict_eq_ok_iff {keys : List (String × Shape)} {known : List String}
    (lists : Grammar.Lists keys known) {location : String} {raw : Data} :
    check ⟨true, keys, Grammar.itemKeys⟩ location raw = .ok () ↔
      check ⟨false, keys, Grammar.itemKeys⟩ location raw = .ok () ∧ HasKnownKeys known raw := by
  rw [check_eq_ok_iff_fault?, check_eq_ok_iff_fault?]
  exact Grammar.itemFault?_strict_eq_none_iff lists raw

/-- Whatever follows a check, asking for more in the check is asking for more of the whole. -/
theorem bind_strict_eq_ok_iff {ε β : Type} {strict lenient : Except ε Unit} {extra : Prop}
    (checks : strict = .ok () ↔ lenient = .ok () ∧ extra) {next : Unit → Except ε β} {result : β} :
    strict >>= next = .ok result ↔ lenient >>= next = .ok result ∧ extra := by
  rw [bind_eq_ok_iff, bind_eq_ok_iff]
  constructor
  · rintro ⟨_, isStrict, isNext⟩
    obtain ⟨isLenient, holds⟩ := checks.mp isStrict
    exact ⟨⟨(), isLenient, isNext⟩, holds⟩
  · rintro ⟨⟨_, isLenient, isNext⟩, holds⟩
    exact ⟨(), checks.mpr ⟨isLenient, holds⟩, isNext⟩

/-- A strict reading gives the item of a lenient one, of data with known keys. -/
theorem normalize_strict_eq_ok_iff {location : String} {raw : Data} {item : Item} :
    normalize true location raw = .ok item ↔
      normalize false location raw = .ok item ∧ HasKnownKeys knownKeys raw :=
  bind_strict_eq_ok_iff (check_strict_eq_ok_iff Grammar.lists_itemKeys)

end Item

/-- A strict reading gives the breadcrumb of a lenient one, of data with known keys and, at its top,
a parent. -/
theorem Breadcrumb.normalize_strict_eq_ok_iff {location : String} {raw : Data}
    {breadcrumb : Breadcrumb} :
    normalize true location raw = .ok breadcrumb ↔
      normalize false location raw = .ok breadcrumb ∧
        Item.HasKnownKeys (Item.knownKeys ++ ["parent"]) raw :=
  Item.bind_strict_eq_ok_iff (Item.check_strict_eq_ok_iff Grammar.lists_breadcrumbKeys)

namespace Settings

/-- The same settings with a strict or a lenient grammar. -/
def withStrict (settings : Settings) (strict : Bool) : Settings :=
  { settings with strictItems := strict }

variable (settings : Settings) (strict : Bool)

@[simp] theorem withStrict_strictItems : (settings.withStrict strict).strictItems = strict := rfl

@[simp] theorem rootCall_withStrict : (settings.withStrict strict).rootCall = settings.rootCall := rfl

end Settings

/-- Both settings make the same objects of items: the same factory for the same type of items, and
services of the same type. -/
structure Settings.SameObjects (settings other : Settings) : Prop where
  itemFactory : other.itemFactory = settings.itemFactory
  itemType : other.itemType = settings.itemType
  serviceType : other.serviceType = settings.serviceType

/-- What an item becomes depends on the settings only as far as they say what objects are made. -/
theorem Item.instruction_eq_of_sameObjects {settings other : Settings}
    (same : settings.SameObjects other) (name : String) (item : Item) :
    item.instruction other name = item.instruction settings name := by
  have sameService : Service.instruction other = Service.instruction settings := by
    funext service
    rw [Service.instruction, Service.instruction, same.serviceType]
  have sameAssemble : assemble other = assemble settings := by
    funext name attributes children
    rw [assemble, assemble, Settings.itemCall, Settings.itemCall, same.itemFactory, same.itemType]
  induction item using treeInduction generalizing name with
  | step item ih =>
    cases provided : item.service with
    | some service =>
        rw [instruction_of_service _ _ provided, instruction_of_service _ _ provided, sameService]
    | none =>
        cases isSource : item.source with
        | some source =>
            rw [instruction_of_source _ _ provided isSource,
              instruction_of_source _ _ provided isSource]
        | none =>
            have sameCalls : childCalls other item.children = childCalls settings item.children := by
              rw [childCalls_eq_map, childCalls_eq_map]
              apply List.map_congr_left
              intro entry member
              rw [ih entry member]
            rw [instruction_of_own _ _ provided isSource, instruction_of_own _ _ provided isSource,
              sameCalls, sameAssemble]

/-- What an item becomes does not depend on the grammar. -/
@[simp] theorem Item.instruction_withStrict (settings : Settings) (strict : Bool) (name : String)
    (item : Item) :
    item.instruction (settings.withStrict strict) name = item.instruction settings name := by
  have same : settings.SameObjects (settings.withStrict strict) := ⟨rfl, rfl, rfl⟩
  exact instruction_eq_of_sameObjects same name item

end MenuPlan

/-
# Short forms are of no account

The grammar is checked on the data as it is written, and only then is the long form read. That this
makes no difference has two reasons, which this module proves: the grammar accepts data exactly if
it accepts its long form, at every depth, and the long form of a long form is itself. So data with
the same long form is read as the same item or breadcrumb, or refused at the same place.

What is said about a fault may differ, because messages quote the data.
-/

import MenuPlan.Proofs.Item.Members

namespace MenuPlan

/-- The errors are of one kind and speak of the same places in a document. What is said about an
invalid value may differ. -/
inductive CompileError.SameCause : CompileError → CompileError → Prop where
  | same (error : CompileError) : SameCause error error
  | validation (location detail other : String) :
      SameCause (.validation location detail) (.validation location other)

/-- Both succeed with the same value, or both fail for the same cause. -/
inductive SameOutcome {α : Type} : Except CompileError α → Except CompileError α → Prop where
  | ok (value : α) : SameOutcome (.ok value) (.ok value)
  | error {first second : CompileError} (cause : first.SameCause second) :
      SameOutcome (.error first) (.error second)

namespace SameOutcome

variable {α β : Type} {first second : Except CompileError α}

theorem refl (outcome : Except CompileError α) : SameOutcome outcome outcome := by
  cases outcome with
  | ok value => exact .ok value
  | error error => exact .error (.same error)

/-- What goes on in the same way after the same outcome has the same outcome. -/
theorem bind (same : SameOutcome first second) {next other : α → Except CompileError β}
    (later : ∀ value, SameOutcome (next value) (other value)) :
    SameOutcome (first >>= next) (second >>= other) := by
  cases same with
  | ok value => exact later value
  | error cause => exact .error cause

theorem map (same : SameOutcome first second) (f : α → β) :
    SameOutcome (f <$> first) (f <$> second) := by
  cases same with
  | ok value => exact .ok (f value)
  | error cause => exact .error cause

/-- Where every error is an invalid value at one place, it is enough that successes are the same. -/
theorem of_ok_iff {location : String} (sameOk : ∀ value, first = .ok value ↔ second = .ok value)
    (firstAt : ∀ error, first = .error error → ∃ detail, error = .validation location detail)
    (secondAt : ∀ error, second = .error error → ∃ detail, error = .validation location detail) :
    SameOutcome first second := by
  cases first with
  | ok value =>
      rw [(sameOk value).mp rfl]
      exact .ok value
  | error error =>
      cases second with
      | ok value => cases (sameOk value).mpr rfl
      | error other =>
          obtain ⟨detail, rfl⟩ := firstAt error rfl
          obtain ⟨otherDetail, rfl⟩ := secondAt other rfl
          exact .error (.validation location detail otherDetail)

end SameOutcome

namespace Item

variable {strict : Bool}

theorem expandName_expandName (field : String) (value : Data) :
    expandName field (expandName field value) = expandName field value := by
  cases value <;> rfl

theorem expandValue_children (value : Data) :
    expandValue "children" value = expandChildren value :=
  rfl

/-- The value of a key in its long form stays as it is, if this is so for the items below. -/
theorem expandValue_expandValue {name : String} {value : Data}
    (below : ∀ entries, name = "children" → value = .object entries →
      ∀ entry ∈ entries, expand (expand entry.2) = expand entry.2) :
    expandValue name (expandValue name value) = expandValue name value := by
  by_cases isRoute : name = "route"
  · subst isRoute
    exact expandName_expandName "name" value
  by_cases isService : name = "service"
  · subst isService
    exact expandName_expandName "id" value
  by_cases isChildren : name = "children"
  · subst isChildren
    rw [expandValue_children, expandValue_children]
    cases value with
    | object entries =>
        rw [expandChildren, expandChildren, expandEntries_eq_map, expandEntries_eq_map,
          List.map_map, Data.object.injEq]
        apply List.map_congr_left
        intro entry member
        rw [Function.comp_apply, below entries rfl rfl entry member]
    | null | bool _ | number _ | string _ | array _ => rfl
  · simp only [expandValue, isRoute, isService, isChildren, if_false]

/-- Writing out a long form changes nothing. -/
theorem expand_expand (raw : Data) : expand (expand raw) = expand raw := by
  induction raw using Data.itemInduction with
  | step raw ih =>
    cases raw with
    | object members =>
        rw [expand, expand, expandMembers_eq_map, expandMembers_eq_map, List.map_map,
          Data.object.injEq]
        apply List.map_congr_left
        rintro ⟨name, value⟩ member
        rw [Function.comp_apply, expandValue_expandValue]
        rintro entries rfl rfl
        exact ih members entries rfl member
    | null | bool _ | number _ | string _ | array _ => rfl

/-- A name stands for a record in the grammar exactly if it is one. -/
theorem isNameOrRecord_expandName_iff {required : String} {IsMember : String → Data → Prop}
    (isMember_iff : ∀ value, IsMember required value ↔ ∃ text, value = .string text ∧ text ≠ "")
    {value : Data} :
    IsNameOrRecord required IsMember (expandName required value) ↔
      IsNameOrRecord required IsMember value := by
  cases value with
  | string text =>
      constructor
      · rintro (_ | _ | ⟨-, each⟩)
        obtain ⟨_, ⟨⟩, nonEmpty⟩ := (isMember_iff _).mp (each _ List.mem_cons_self)
        exact IsNameOrRecord.name nonEmpty
      · rintro (_ | nonEmpty)
        refine IsNameOrRecord.record List.mem_cons_self ?_
        intro entry member
        rw [List.mem_singleton.mp member, isMember_iff]
        exact ⟨text, rfl, nonEmpty⟩
  | null | bool _ | number _ | array _ | object _ => exact Iff.rfl

/-- The long form of a member has a fault exactly if the member has, if this is so for the items
below. -/
theorem hasNoFault_expandValue_iff {name : String} {value : Data}
    (below : ∀ entries, name = "children" → value = .object entries →
      ∀ entry ∈ entries, IsItem strict (expand entry.2) ↔ IsItem strict entry.2) :
    HasNoFault strict name (expandValue name value) ↔ HasNoFault strict name value := by
  by_cases isRoute : name = "route"
  · subst isRoute
    rw [hasNoFault_route_iff, hasNoFault_route_iff]
    exact isNameOrRecord_expandName_iff fun _ => Route.isMember_name_iff
  by_cases isService : name = "service"
  · subst isService
    rw [hasNoFault_service_iff, hasNoFault_service_iff]
    exact isNameOrRecord_expandName_iff fun _ => Service.isMember_id_iff
  by_cases isChildren : name = "children"
  · subst isChildren
    simp only [expandValue_children, hasNoFault_children_iff, itemFault?_eq_none_iff]
    cases value with
    | object entries =>
        have sameItems := below entries rfl rfl
        simp only [expandChildren, expandEntries_eq_map, Data.object.injEq, reduceCtorEq, false_or,
          exists_eq_left', List.forall_mem_map]
        exact forall₂_congr sameItems
    | null => simp [expandChildren]
    | bool _ | number _ | string _ | array _ => exact Iff.rfl
  · simp only [expandValue, isRoute, isService, isChildren, if_false]

/-- Data is in the grammar exactly if its long form is. -/
theorem isItem_expand_iff {raw : Data} : IsItem strict (expand raw) ↔ IsItem strict raw := by
  induction raw using Data.itemInduction with
  | step raw ih =>
    cases raw with
    | object members =>
        rw [expand, isItem_object_iff, isItem_object_iff, expandMembers_eq_map,
          List.forall_mem_map]
        apply forall₂_congr
        rintro ⟨name, value⟩ member
        apply hasNoFault_expandValue_iff
        rintro entries rfl rfl
        exact ih members entries rfl member
    | null => exact iff_of_true (IsItem.object (List.forall_mem_nil _)) IsItem.null
    | bool _ | number _ | string _ | array _ => exact Iff.rfl

/-- Two ways of writing the same item, at any depth. -/
def SameLongForm (raw other : Data) : Prop :=
  expand raw = expand other

/-- Both describe an item if one of them does. -/
theorem SameLongForm.normalize_eq_ok_iff {raw other : Data} (same : SameLongForm raw other)
    {location : String} {item : Item} :
    normalize strict location raw = .ok item ↔ normalize strict location other = .ok item := by
  rw [Item.normalize_eq_ok_iff, Item.normalize_eq_ok_iff, ← isItem_expand_iff, same,
    isItem_expand_iff]

/-- It does not matter for an item how it is written. -/
theorem SameLongForm.normalize {raw other : Data} (same : SameLongForm raw other) (strict : Bool)
    (location : String) :
    SameOutcome (normalize strict location raw) (normalize strict location other) :=
  SameOutcome.of_ok_iff (fun _ => same.normalize_eq_ok_iff) (fun _ => normalize_eq_error)
    (fun _ => normalize_eq_error)

end Item

namespace Breadcrumb

/-- The parent of a breadcrumb has no short form. -/
theorem hasParentText_expand_iff {raw : Data} :
    HasParentText (Item.expand raw) ↔ HasParentText raw := by
  cases raw with
  | object members =>
      have sameParent : ∀ value, ("parent", value) ∈ Item.expandMembers members ↔
          ("parent", value) ∈ members := by
        intro value
        rw [Item.mem_expandMembers_iff]
        exact exists_eq_right
      simp only [HasParentText, Item.expand, Data.object.injEq, forall_eq', sameParent]
  | null => simp [HasParentText, Item.expand]
  | bool _ | number _ | string _ | array _ => exact Iff.rfl

/-- It does not matter for a breadcrumb how it is written. -/
theorem normalize_of_sameLongForm {raw other : Data} (same : Item.SameLongForm raw other)
    (strict : Bool) (location : String) :
    SameOutcome (normalize strict location raw) (normalize strict location other) := by
  have sameRest : Item.SameLongForm (withoutParent raw) (withoutParent other) := by
    rw [Item.SameLongForm, ← withoutParent_expand, ← withoutParent_expand, same]
  apply SameOutcome.of_ok_iff _ (fun _ => normalize_eq_error) (fun _ => normalize_eq_error)
  intro breadcrumb
  rw [normalize_eq_ok_iff, normalize_eq_ok_iff, ← hasParentText_expand_iff, same,
    hasParentText_expand_iff, sameRest.normalize_eq_ok_iff]

end Breadcrumb

end MenuPlan

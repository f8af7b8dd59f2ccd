/-
# Values in another order of keys

Two lists of fields hold the same in another order if every entry of the one has its counterpart
somewhere in the other. `Fields.Reordered` says this for any way of being a counterpart, so that it
can be used at every depth: `Data.Reordered` and `Term.Reordered` are equality up to the order of
keys, in all objects and mappings inside.

Where names are distinct, being reordered is a matter of what is found under each name
(`Fields.Reordered.get?`, `Fields.reordered_of_get?`). Whatever only looks names up takes this as
all there is to know, and gives reordered results for reordered values.
-/

import MenuPlan.Proofs.Instruction.Restoring
import MenuPlan.Proofs.Item.Parent

namespace MenuPlan

/-- Related functions keep values related. -/
theorem optionRel_map {α β γ δ : Type} {R : α → β → Prop} {S : γ → δ → Prop} {f : α → γ}
    {g : β → δ} {value : Option α} {other : Option β} (related : Option.Rel R value other)
    (each : ∀ value other, R value other → S (f value) (g other)) :
    Option.Rel S (value.map f) (other.map g) := by
  cases related with
  | none => exact .none
  | some related => exact .some (each _ _ related)

theorem isSome_eq_of_optionRel {α β : Type} {R : α → β → Prop} {value : Option α}
    {other : Option β} (related : Option.Rel R value other) : value.isSome = other.isSome := by
  cases related <;> rfl

/-- The first of related values are related. -/
theorem optionRel_or {α β : Type} {R : α → β → Prop} {value next : Option α}
    {other otherNext : Option β} (related : Option.Rel R value other)
    (later : Option.Rel R next otherNext) :
    Option.Rel R (value.or next) (other.or otherNext) := by
  cases related with
  | none => exact later
  | some related => exact .some related

namespace Fields

variable {α β γ δ : Type}

/-- Two entries have one name and related values. -/
inductive SameName (R : α → β → Prop) : String × α → String × β → Prop where
  | intro {name : String} {value : α} {other : β} (related : R value other) :
      SameName R (name, value) (name, other)

/-- Every entry of the second list has a counterpart of its own in the first, wherever it stands,
and there are no other entries in the first. -/
inductive Reordered (P : String × α → String × β → Prop) : Fields α → Fields β → Prop where
  | nil : Reordered P [] []
  | cons {entry : String × α} {other : String × β} {others : Fields β} (before after : Fields α)
      (counterpart : P entry other) (rest : Reordered P (before ++ after) others) :
      Reordered P (before ++ entry :: after) (other :: others)

variable {P : String × α → String × β → Prop} {fields : Fields α} {others : Fields β}

theorem SameName.same_name {R : α → β → Prop} {entry : String × α} {other : String × β}
    (same : SameName R entry other) : other.1 = entry.1 := by
  cases same
  rfl

theorem sameName_iff {R : α → β → Prop} {name : String} {value : α} {other : β} :
    SameName R (name, value) (name, other) ↔ R value other := by
  constructor
  · rintro ⟨related⟩
    exact related
  · exact .intro

namespace Reordered

/-- Entries in the same order are reordered too. -/
theorem of_forall₂ (each : List.Forall₂ P fields others) : Reordered P fields others := by
  induction each with
  | nil => exact .nil
  | cons counterpart _ ih => exact .cons [] _ counterpart ih

/-- The names are the same up to their order. -/
theorem names_perm (sameName : ∀ entry other, P entry other → other.1 = entry.1)
    (reordered : Reordered P fields others) : (names fields).Perm (names others) := by
  induction reordered with
  | nil => exact .nil
  | @cons entry other others before after counterpart _ ih =>
      rw [names_append] at ih
      rw [names_append, names_cons, names_cons, sameName _ _ counterpart]
      exact List.perm_middle.trans (ih.cons _)

/-- What holds of an entry exactly if it holds of its counterpart holds of all entries exactly if
it holds of all counterparts. -/
theorem forall_mem_iff {p : String × α → Prop} {q : String × β → Prop}
    (reordered : Reordered P fields others)
    (each : ∀ entry ∈ fields, ∀ other, P entry other → (p entry ↔ q other)) :
    (∀ entry ∈ fields, p entry) ↔ ∀ other ∈ others, q other := by
  induction reordered with
  | nil => exact iff_of_true (List.forall_mem_nil _) (List.forall_mem_nil _)
  | @cons entry other others before after counterpart _ ih =>
      have isMember : ∀ found, found ∈ before ++ entry :: after ↔
          found = entry ∨ found ∈ before ++ after := by
        intro found
        simp only [List.mem_append, List.mem_cons]
        tauto
      have first := each entry ((isMember entry).mpr (Or.inl rfl)) other counterpart
      have later := ih fun found member => each found ((isMember found).mpr (Or.inr member))
      simp only [isMember, forall_eq_or_imp, List.mem_cons, first, later]

/-- Entries that are picked by their names are reordered, with whatever is known of those that are
picked. -/
theorem filter {Q : String × α → String × β → Prop} (keep : String → Bool)
    (sameName : ∀ entry other, P entry other → other.1 = entry.1)
    (picked : ∀ entry other, keep entry.1 = true → P entry other → Q entry other)
    (reordered : Reordered P fields others) :
    Reordered Q (fields.filter fun entry => keep entry.1)
      (others.filter fun entry => keep entry.1) := by
  induction reordered with
  | nil => exact .nil
  | @cons entry other others before after counterpart _ ih =>
      have isName := sameName _ _ counterpart
      rw [List.filter_append] at ih
      rw [List.filter_append, List.filter_cons, List.filter_cons, isName]
      by_cases kept : keep entry.1 = true
      · rw [if_pos kept, if_pos kept]
        exact .cons _ _ (picked _ _ kept counterpart) ih
      · rwa [if_neg kept, if_neg kept]

/-- Functions that take counterparts to counterparts keep fields reordered. -/
theorem mapValues {R : α → β → Prop} {S : γ → δ → Prop} {f : α → γ} {g : β → δ}
    (reordered : Reordered (SameName R) fields others)
    (each : ∀ entry ∈ fields, ∀ other, R entry.2 other → S (f entry.2) (g other)) :
    Reordered (SameName S) (mapValues f fields) (mapValues g others) := by
  induction reordered with
  | nil => exact .nil
  | @cons entry other others before after counterpart _ ih =>
      have isMember : entry ∈ before ++ entry :: after :=
        List.mem_append_right _ List.mem_cons_self
      have first : SameName S (entry.1, f entry.2) (other.1, g other.2) := by
        obtain ⟨related⟩ := counterpart
        exact .intro (each _ isMember _ related)
      have later := ih fun found member => each found (by
        simp only [List.mem_append, List.mem_cons] at member ⊢
        tauto)
      simp only [Fields.mapValues, List.map_append, List.map_cons] at later ⊢
      exact .cons _ _ first later

/-- Under distinct names, counterparts are found under one name, or nothing is. -/
theorem get? (sameName : ∀ entry other, P entry other → other.1 = entry.1)
    (reordered : Reordered P fields others) (distinct : Distinct fields) (name : String) :
    Option.Rel (fun value other => P (name, value) (name, other))
      (get? fields name) (get? others name) := by
  induction reordered with
  | nil => exact .none
  | @cons entry other others before after counterpart _ ih =>
      obtain ⟨key, value⟩ := entry
      obtain ⟨otherKey, otherValue⟩ := other
      obtain rfl : otherKey = key := sameName _ _ counterpart
      have distinctRest : Distinct (before ++ after) := by
        rw [← erase_middle distinct]
        exact distinct.erase otherKey
      rw [Fields.get?]
      by_cases same : otherKey = name
      · subst same
        rw [get?_middle distinct, if_pos rfl]
        exact .some counterpart
      · rw [get?_middle_of_ne same, if_neg same]
        exact ih distinctRest

/-- Under distinct names, related values are found under one name, or nothing is. -/
theorem get?_of_sameName {R : α → β → Prop} (reordered : Reordered (SameName R) fields others)
    (distinct : Distinct fields) (name : String) :
    Option.Rel R (Fields.get? fields name) (Fields.get? others name) := by
  have found := reordered.get? (fun _ _ => SameName.same_name) distinct name
  simpa only [sameName_iff] using found

end Reordered

/-- Without an entry for any name there are no entries. -/
theorem eq_nil_of_get?_eq_none (none : ∀ name, get? fields name = none) : fields = [] := by
  cases fields with
  | nil => rfl
  | cons entry rest =>
      have missing := none entry.1
      rw [get?_eq_none_iff] at missing
      exact absurd List.mem_cons_self missing

/-- Fields with distinct names in which counterparts are found under each name are reordered. -/
theorem reordered_of_get? (distinct : Distinct fields) (distinctOthers : Distinct others)
    (found : ∀ name, Option.Rel (fun value other => P (name, value) (name, other))
      (get? fields name) (get? others name)) : Reordered P fields others := by
  induction others generalizing fields with
  | nil =>
      obtain rfl : fields = [] := by
        apply eq_nil_of_get?_eq_none
        intro name
        have nothing := found name
        generalize get? fields name = here at nothing ⊢
        cases nothing
        rfl
      exact .nil
  | cons other rest ih =>
      obtain ⟨key, value⟩ := other
      obtain ⟨fresh, distinctRest⟩ := List.nodup_cons.mp distinctOthers
      have here := found key
      rw [get?, if_pos rfl] at here
      obtain ⟨own, isOwn, counterpart⟩ : ∃ own, get? fields key = some own ∧
          P (key, own) (key, value) := by
        generalize get? fields key = inFields at here
        cases here with
        | some counterpart => exact ⟨_, rfl, counterpart⟩
      obtain ⟨before, after, rfl⟩ := List.append_of_mem (mem_of_get?_eq_some isOwn)
      refine .cons before after counterpart (ih ?_ distinctRest ?_)
      · rw [← erase_middle distinct]
        exact distinct.erase key
      · intro name
        by_cases same : key = name
        · subst same
          have erased : get? (before ++ after) key = none := by
            rw [← erase_middle distinct, get?_erase, if_pos rfl]
          rw [erased, (get?_eq_none_iff rest key).mpr fresh]
          exact .none
        · have there := found name
          rwa [get?_middle_of_ne same, get?, if_neg same] at there

end Fields

/-- The values are equal up to the order of the keys of objects, at every depth. -/
inductive Data.Reordered : Data → Data → Prop where
  | null : Reordered .null .null
  | bool (value : Bool) : Reordered (.bool value) (.bool value)
  | number (value : Number) : Reordered (.number value) (.number value)
  | string (value : String) : Reordered (.string value) (.string value)
  | array {items others : List Data} (each : List.Forall₂ Reordered items others) :
      Reordered (.array items) (.array others)
  | object {members others : Fields Data}
      (each : Fields.Reordered (Fields.SameName Reordered) members others) :
      Reordered (.object members) (.object others)

/-- The terms are equal up to the order of the keys of mappings and literal objects, at every
depth. -/
inductive Term.Reordered : Term → Term → Prop where
  | literal {value other : Data} (reordered : value.Reordered other) :
      Reordered (.literal value) (.literal other)
  | sequence {items others : List Term} (each : List.Forall₂ Reordered items others) :
      Reordered (.sequence items) (.sequence others)
  | mapping {entries others : Fields Term}
      (each : Fields.Reordered (Fields.SameName Reordered) entries others) :
      Reordered (.mapping entries) (.mapping others)
  | reference (id : String) : Reordered (.reference id) (.reference id)
  | expression (source : String) : Reordered (.expression source) (.expression source)

namespace Data

theorem Reordered.refl (value : Data) : Reordered value value := by
  induction value using valueInduction with
  | null => exact .null
  | bool value => exact .bool value
  | number value => exact .number value
  | string value => exact .string value
  | array items ih => exact .array (List.forall₂_same.mpr ih)
  | object members ih =>
      refine .object (Fields.Reordered.of_forall₂ (List.forall₂_same.mpr ?_))
      intro member inMembers
      exact .intro (ih member inMembers)

/-- Only null is null in another order. -/
theorem Reordered.eq_null_iff {value other : Data} (reordered : Reordered value other) :
    value = .null ↔ other = .null := by
  cases reordered <;> simp

end Data

namespace Term

/-- Terms in another order are the same number of arguments, each in another order. -/
theorem Reordered.arguments {term other : Term} (reordered : Reordered term other) :
    List.Forall₂ Reordered term.arguments other.arguments := by
  cases reordered with
  | sequence each => exact each
  | literal value =>
      cases value with
      | array each =>
          rw [Term.arguments, Term.arguments, List.forall₂_map_left_iff, List.forall₂_map_right_iff]
          exact each.imp fun _ _ => .literal
      | null => exact .cons (.literal .null) .nil
      | bool value => exact .cons (.literal (.bool value)) .nil
      | number value => exact .cons (.literal (.number value)) .nil
      | string value => exact .cons (.literal (.string value)) .nil
      | object each => exact .cons (.literal (.object each)) .nil
  | mapping each => exact .cons (.mapping each) .nil
  | reference id => exact .cons (.reference id) .nil
  | expression source => exact .cons (.expression source) .nil

theorem Reordered.ofText (text : String) : Reordered (ofText text) (ofText text) := by
  rw [Term.ofText]
  split
  · exact .literal (.string text)
  · split_ifs
    · exact .literal (.string text)
    · exact .literal (.string _)
    · exact .expression _

/-- Values in another order mean terms in another order. -/
theorem Reordered.ofData {value other : Data} (reordered : value.Reordered other) :
    Reordered (ofData value) (ofData other) := by
  induction value using Data.valueInduction generalizing other with
  | null =>
      cases reordered
      exact .literal .null
  | bool value =>
      cases reordered
      exact .literal (.bool value)
  | number value =>
      cases reordered
      exact .literal (.number value)
  | string text =>
      cases reordered
      exact .ofText text
  | array items ih =>
      cases reordered with
      | array each =>
          rw [Term.ofData, Term.ofData, Item.ofItems_eq_map, Item.ofItems_eq_map]
          refine .sequence ?_
          rw [List.forall₂_map_left_iff, List.forall₂_map_right_iff]
          have related := (List.forall₂_and_left _ _).mpr ⟨ih, each⟩
          exact related.imp fun _ _ ⟨inner, isReordered⟩ => inner isReordered
  | object members ih =>
      cases reordered with
      | object each =>
          rw [Term.ofData, Term.ofData, ofMembers_eq_mapValues, ofMembers_eq_mapValues]
          exact .mapping (each.mapValues fun member inMembers _ => ih member inMembers)

end Term

end MenuPlan

/-
# Computations in steps that can fail

What the success of a computation says about its steps, and what is left of a step that is known to
succeed.
-/

import Mathlib

namespace MenuPlan

variable {ε α β : Type}

/-- A step that succeeds hands its value on. -/
@[simp] theorem ok_bind (value : α) (next : α → Except ε β) :
    (Except.ok value >>= next) = next value :=
  rfl

/-- A computation succeeds exactly if its first step does and what follows does. -/
theorem bind_eq_ok_iff {first : Except ε α} {next : α → Except ε β} {result : β} :
    first >>= next = .ok result ↔ ∃ value, first = .ok value ∧ next value = .ok result := by
  cases first with
  | error error =>
      constructor
      · intro failed
        cases failed
      · rintro ⟨value, failed, -⟩
        cases failed
  | ok value =>
      constructor
      · intro succeeded
        exact ⟨value, rfl, succeeded⟩
      · rintro ⟨same, isValue, succeeded⟩
        cases isValue
        exact succeeded

/-- There is a result exactly if there is one of the first step and then one of what follows. -/
theorem exists_bind_eq_ok_iff {first : Except ε α} {next : α → Except ε β} :
    (∃ result, first >>= next = .ok result) ↔
      ∃ value, first = .ok value ∧ ∃ result, next value = .ok result := by
  simp only [bind_eq_ok_iff]
  constructor
  · rintro ⟨result, value, isValue, isResult⟩
    exact ⟨value, isValue, result, isResult⟩
  · rintro ⟨value, isValue, result, isResult⟩
    exact ⟨result, value, isValue, isResult⟩

/-- A mapped result is a result of the step, mapped. -/
theorem map_eq_ok_iff {step : Except ε α} {f : α → β} {result : β} :
    f <$> step = .ok result ↔ ∃ value, step = .ok value ∧ f value = result := by
  cases step with
  | error error =>
      constructor
      · intro failed
        cases failed
      · rintro ⟨value, failed, -⟩
        cases failed
  | ok value =>
      constructor
      · intro succeeded
        exact ⟨value, rfl, Except.ok.inj succeeded⟩
      · rintro ⟨same, isValue, rfl⟩
        cases isValue
        rfl

/-- A computation fails with the error of its first step, or with that of what follows. -/
theorem bind_eq_error_iff {first : Except ε α} {next : α → Except ε β} {error : ε} :
    first >>= next = .error error ↔
      first = .error error ∨ ∃ value, first = .ok value ∧ next value = .error error := by
  cases first with
  | error found =>
      constructor
      · intro failed
        exact Or.inl (congrArg _ (Except.error.inj failed))
      · rintro (failed | ⟨value, succeeded, -⟩)
        · exact congrArg _ (Except.error.inj failed)
        · cases succeeded
  | ok value =>
      constructor
      · intro failed
        exact Or.inr ⟨value, rfl, failed⟩
      · rintro (failed | ⟨same, isValue, failed⟩)
        · cases failed
        · cases isValue
          exact failed

/-- A mapped step fails as the step does. -/
theorem map_eq_error_iff {step : Except ε α} {f : α → β} {error : ε} :
    f <$> step = .error error ↔ step = .error error := by
  cases step with
  | error found => exact ⟨fun failed => congrArg _ (Except.error.inj failed),
      fun failed => congrArg _ (Except.error.inj failed)⟩
  | ok value => exact ⟨nofun, nofun⟩

/-- A step that fails with no error succeeds. -/
theorem exists_ok_iff {step : Except ε α} :
    (∃ value, step = .ok value) ↔ ¬ ∃ error, step = .error error := by
  cases step with
  | error error => exact ⟨nofun, fun never => absurd ⟨error, rfl⟩ never⟩
  | ok value => exact ⟨fun _ => nofun, fun _ => ⟨value, rfl⟩⟩

/-! ## Passes over lists -/

/-- The first item of a list that has a property. -/
def IsFirst (P : α → Prop) (items : List α) (item : α) : Prop :=
  P item ∧ ∃ before after, items = before ++ item :: after ∧ ∀ other ∈ before, ¬ P other

/-- The first item of a list is the head or, when the head does not count, the first of the rest. -/
theorem isFirst_cons_iff {P : α → Prop} {head item : α} {rest : List α} :
    IsFirst P (head :: rest) item ↔ (P head ∧ item = head) ∨ (¬ P head ∧ IsFirst P rest item) := by
  constructor
  · rintro ⟨holds, _ | ⟨first, before⟩, after, isSplit, none⟩
    · cases isSplit
      exact Or.inl ⟨holds, rfl⟩
    · cases isSplit
      obtain ⟨notFirst, noneLater⟩ := List.forall_mem_cons.mp none
      exact Or.inr ⟨notFirst, holds, before, after, rfl, noneLater⟩
  · rintro (⟨holds, rfl⟩ | ⟨notFirst, holds, before, after, rfl, none⟩)
    · exact ⟨holds, [], rest, rfl, List.forall_mem_nil _⟩
    · exact ⟨holds, head :: before, after, rfl, List.forall_mem_cons.mpr ⟨notFirst, none⟩⟩

/-- The first item is an item. -/
theorem IsFirst.mem {P : α → Prop} {items : List α} {item : α} (first : IsFirst P items item) :
    item ∈ items := by
  obtain ⟨-, before, after, rfl, -⟩ := first
  exact List.mem_append_right _ List.mem_cons_self

/-- Where an item has a property, there is a first one. -/
theorem exists_isFirst_iff {P : α → Prop} {items : List α} :
    (∃ item, IsFirst P items item) ↔ ∃ item ∈ items, P item := by
  constructor
  · rintro ⟨item, first⟩
    exact ⟨item, first.mem, first.1⟩
  · rintro ⟨item, member, holds⟩
    induction items with
    | nil => cases member
    | cons head rest ih =>
        by_cases onHead : P head
        · exact ⟨head, isFirst_cons_iff.mpr (Or.inl ⟨onHead, rfl⟩)⟩
        · have inRest : item ∈ rest := by
            rcases List.mem_cons.mp member with rfl | later
            · exact absurd holds onHead
            · exact later
          obtain ⟨found, first⟩ := ih inRest
          exact ⟨found, isFirst_cons_iff.mpr (Or.inr ⟨onHead, first⟩)⟩

section Related

variable {R : α → β → Prop} {items : List α} {results : List β}
  (each : List.Forall₂ R items results)

include each

/-- In two lists that are related item by item, every item of the first has its counterpart. -/
theorem exists_mem_of_forall₂_left {item : α} (member : item ∈ items) :
    ∃ result ∈ results, R item result := by
  induction each with
  | nil => cases member
  | cons related _ ih =>
      rcases List.mem_cons.mp member with rfl | later
      · exact ⟨_, List.mem_cons_self, related⟩
      · obtain ⟨result, inResults, isRelated⟩ := ih later
        exact ⟨result, List.mem_cons_of_mem _ inResults, isRelated⟩

/-- And so has every item of the second. -/
theorem exists_mem_of_forall₂_right {result : β} (member : result ∈ results) :
    ∃ item ∈ items, R item result := by
  induction each with
  | nil => cases member
  | cons related _ ih =>
      rcases List.mem_cons.mp member with rfl | later
      · exact ⟨_, List.mem_cons_self, related⟩
      · obtain ⟨item, inItems, isRelated⟩ := ih later
        exact ⟨item, List.mem_cons_of_mem _ inItems, isRelated⟩

end Related

/-- A pass over a list is its first step and then the pass over the rest. -/
theorem mapM_cons_eq_bind (step : α → Except ε β) (item : α) (rest : List α) :
    (item :: rest).mapM step = step item >>= fun value => (value :: ·) <$> rest.mapM step := by
  rw [List.mapM_cons]
  rfl

/-- A pass over a list succeeds exactly if every step does, and gives the values in order. -/
theorem mapM_eq_ok_iff {step : α → Except ε β} {items : List α} {results : List β} :
    items.mapM step = .ok results ↔
      List.Forall₂ (fun item result => step item = .ok result) items results := by
  induction items generalizing results with
  | nil =>
      rw [List.mapM_nil, List.forall₂_nil_left_iff]
      constructor
      · intro isNil
        exact (Except.ok.inj isNil).symm
      · rintro rfl
        rfl
  | cons item rest ih =>
      simp only [mapM_cons_eq_bind, bind_eq_ok_iff, map_eq_ok_iff, List.forall₂_cons_left_iff]
      constructor
      · rintro ⟨value, isValue, values, isValues, isCons⟩
        exact ⟨value, values, isValue, ih.mp isValues, isCons.symm⟩
      · rintro ⟨value, values, isValue, isValues, rfl⟩
        exact ⟨value, isValue, values, ih.mpr isValues, rfl⟩

/-- A pass over a list fails with the error of the first step that fails. -/
theorem mapM_eq_error_iff {step : α → Except ε β} {items : List α} {error : ε} :
    items.mapM step = .error error ↔
      ∃ item, IsFirst (fun item => ∃ error, step item = .error error) items item ∧
        step item = .error error := by
  induction items with
  | nil =>
      constructor
      · intro failed
        cases failed
      · rintro ⟨item, first, -⟩
        cases first.mem
  | cons head rest ih =>
      simp only [mapM_cons_eq_bind, bind_eq_error_iff, map_eq_error_iff, isFirst_cons_iff]
      constructor
      · rintro (failed | ⟨value, isValue, failed⟩)
        · exact ⟨head, Or.inl ⟨⟨error, failed⟩, rfl⟩, failed⟩
        · obtain ⟨item, first, isError⟩ := ih.mp failed
          exact ⟨item, Or.inr ⟨exists_ok_iff.mp ⟨value, isValue⟩, first⟩, isError⟩
      · rintro ⟨item, ⟨-, rfl⟩ | ⟨noError, first⟩, isError⟩
        · exact Or.inl isError
        · obtain ⟨value, isValue⟩ := exists_ok_iff.mpr noError
          exact Or.inr ⟨value, isValue, ih.mpr ⟨item, first, isError⟩⟩

/-- A pass over a list succeeds exactly if no step fails. -/
theorem exists_mapM_eq_ok_iff {step : α → Except ε β} {items : List α} :
    (∃ results, items.mapM step = .ok results) ↔
      ∀ item ∈ items, ¬ ∃ error, step item = .error error := by
  rw [exists_ok_iff]
  simp only [mapM_eq_error_iff]
  constructor
  · intro none item member fails
    have someFirst : ∃ first, IsFirst (fun item => ∃ error, step item = .error error) items first :=
      exists_isFirst_iff.mpr ⟨item, member, fails⟩
    obtain ⟨first, isFirst⟩ := someFirst
    obtain ⟨error, isError⟩ := isFirst.1
    exact none ⟨error, first, isFirst, isError⟩
  · rintro none ⟨error, item, isFirst, isError⟩
    exact none item isFirst.mem ⟨error, isError⟩

/-- A pass that only checks succeeds exactly if every check does. -/
theorem forM_eq_ok_iff {check : α → Except ε Unit} {items : List α} :
    items.forM check = .ok () ↔ ∀ item ∈ items, check item = .ok () := by
  induction items with
  | nil =>
      rw [List.forM_eq_forM, List.forM_nil]
      exact iff_of_true rfl (List.forall_mem_nil _)
  | cons item rest ih =>
      rw [List.forM_eq_forM] at ih ⊢
      rw [List.forM_cons, bind_eq_ok_iff, List.forall_mem_cons, ih]
      constructor
      · rintro ⟨_, isChecked, isRest⟩
        exact ⟨isChecked, isRest⟩
      · rintro ⟨isChecked, isRest⟩
        exact ⟨_, isChecked, isRest⟩

end MenuPlan

/-
# What an instruction contains

An instruction contains those that stand among the arguments of its factory or of its method calls,
and those that these contain. `Throughout` carries a property over all of them; it is an induction
principle as well, because nothing contains itself.

`IsRoot` says what the root of a plan's entry looks like, and `IsInner` what every instruction below
a root looks like. They do not mention items: this is what whoever carries out a plan can rely on.
-/

import Mathlib
import MenuPlan.Proofs.Item.Mirror
import MenuPlan.Proofs.Steps

namespace MenuPlan

namespace Call

/-- The child that a call attaches. -/
@[simp] theorem child?_addChild (name : String) (child : Instruction) :
    (addChild name child).child? = some child := by
  rw [child?, addChild]
  split_ifs <;> rfl

/-- A call that attaches a child determines the child. -/
theorem child_eq_of_addChild_eq {name other : String} {child part : Instruction}
    (same : addChild name child = addChild other part) : child = part := by
  have sameChild := congrArg child? same
  rwa [child?_addChild, child?_addChild, Option.some.injEq] at sameChild

/-- A call that attaches a child has no other instruction among its arguments. -/
theorem instruction_mem_arguments_addChild_iff {name : String} {part child : Instruction} :
    Argument.instruction part ∈ (addChild name child).arguments ↔ part = child := by
  rw [addChild]
  split_ifs <;> simp

end Call

namespace Instruction

/-- The instruction is an argument of the factory that the other one calls, or of one of the methods
that it calls afterwards. -/
inductive IsPart (part whole : Instruction) : Prop where
  | ofFactory {targetType : String} {factory : FactoryRef} {arguments : List Argument}
      (isOrigin : whole.origin = .factoryCall targetType factory arguments)
      (member : .instruction part ∈ arguments) : IsPart part whole
  | ofCall {call : Call} (isCall : call ∈ whole.calls)
      (member : .instruction part ∈ call.arguments) : IsPart part whole

/-- The instruction is a part of the other one, or a part of its parts, at any depth. -/
def LiesBelow : Instruction → Instruction → Prop :=
  Relation.TransGen IsPart

/-- A property of an instruction and of all that lie below it. -/
inductive Throughout (P : Instruction → Prop) : Instruction → Prop where
  | intro {whole : Instruction} (own : P whole)
      (below : ∀ part, IsPart part whole → Throughout P part) : Throughout P whole

/-- A property throughout gives way to a weaker one. -/
theorem Throughout.imp {P Q : Instruction → Prop} {whole : Instruction}
    (weaken : ∀ instruction, P instruction → Q instruction) (throughout : Throughout P whole) :
    Throughout Q whole := by
  induction throughout with
  | intro own _ ih => exact ⟨weaken _ own, ih⟩

/-- What holds throughout every part holds below. -/
theorem of_liesBelow {P : Instruction → Prop} {part whole : Instruction}
    (parts : ∀ part, IsPart part whole → Throughout P part) (isBelow : LiesBelow part whole) :
    P part := by
  induction isBelow with
  | single isPart =>
      obtain ⟨own, -⟩ := parts _ isPart
      exact own
  | tail _ isPart ih =>
      obtain ⟨-, below⟩ := parts _ isPart
      exact ih below

/-- Every call attaches a child, and these are all the children. -/
def AttachesChildren (instruction : Instruction) : Prop :=
  List.Forall₂ (fun call child => ∃ name, Call.Attaches name child call)
    instruction.calls instruction.children

/-- The children are attached if every call attaches one. -/
theorem attachesChildren_iff {instruction : Instruction} :
    instruction.AttachesChildren ↔
      ∀ call ∈ instruction.calls, ∃ name child, Call.addChild name child = call := by
  obtain ⟨origin, calls, tags⟩ := instruction
  constructor
  · intro attached call isCall
    obtain ⟨child, -, name, attaches⟩ := exists_mem_of_forall₂_left attached isCall
    exact ⟨name, child, (Item.attaches_iff name child call).mp attaches⟩
  · intro each
    rw [AttachesChildren, children]
    induction calls with
    | nil => exact List.Forall₂.nil
    | cons call rest ih =>
        obtain ⟨⟨name, child, rfl⟩, later⟩ := List.forall_mem_cons.mp each
        have isChild : (if (Call.addChild name child).method = Call.addChildMethod then
            (Call.addChild name child).child? else none) = some child :=
          (if_pos rfl).trans (Call.child?_addChild name child)
        simp only [List.filterMap_cons, isChild]
        exact List.Forall₂.cons ⟨name, (Item.attaches_iff _ _ _).mpr rfl⟩ (ih later)

/-- The instruction has no use for others but to attach them as children: its factory takes values,
and all its calls attach. -/
structure OnlyAttaches (instruction : Instruction) : Prop where
  values : ∀ targetType factory arguments,
    instruction.origin = .factoryCall targetType factory arguments →
      ∀ argument ∈ arguments, ∃ term, argument = .value term
  attached : instruction.AttachesChildren

/-- Then its parts are the children that it attaches. -/
theorem OnlyAttaches.isPart_iff {part whole : Instruction} (attaches : whole.OnlyAttaches) :
    IsPart part whole ↔ ∃ name, Call.addChild name part ∈ whole.calls := by
  obtain ⟨values, attached⟩ := attaches
  constructor
  · rintro (⟨isOrigin, member⟩ | ⟨isCall, member⟩)
    · obtain ⟨term, isValue⟩ := values _ _ _ isOrigin _ member
      cases isValue
    · obtain ⟨name, child, rfl⟩ := attachesChildren_iff.mp attached _ isCall
      rw [Call.instruction_mem_arguments_addChild_iff] at member
      exact ⟨name, member ▸ isCall⟩
  · rintro ⟨name, isCall⟩
    exact IsPart.ofCall isCall (Call.instruction_mem_arguments_addChild_iff.mpr rfl)

variable {settings : Settings}

/-- The root of an entry: an item made under the name `root` and registered under an alias. -/
structure IsRoot (settings : Settings) (name : String) (root : Instruction) : Prop where
  origin : ∃ attributes : Fields Term, "children" ∉ Fields.names attributes ∧
    root.origin = .factoryCall settings.itemType settings.itemFactory
      [.value (.literal (.string "root")), .value (.mapping attributes)]
  tags : root.tags = [(settings.aliasTag, [[("alias", name)]])]
  attached : root.AttachesChildren

/-- An instruction below a root. Only items with children have calls, and none is registered under a
tag. -/
inductive IsInner (settings : Settings) : Instruction → Prop where
  | serviceCall {id method : String} {terms : List Term} (hasId : id ≠ "")
      (hasMethod : method ≠ "") :
      IsInner settings
        { origin := .factoryCall settings.serviceType ⟨id, method⟩ (terms.map Argument.value) }
  | serviceReference {id : String} (hasId : id ≠ "") :
      IsInner settings { origin := .serviceReference id }
  | expression {source : String} (hasSource : source ≠ "") :
      IsInner settings { origin := .expression source }
  | node {instruction : Instruction} {name : String} {attributes : Fields Term}
      (isItem : instruction.origin = .factoryCall settings.itemType settings.itemFactory
        [.value (.literal (.string name)), .value (.mapping attributes)])
      (noChildren : "children" ∉ Fields.names attributes)
      (noExpression : "expression" ∉ Fields.names attributes)
      (hasCalls : instruction.calls ≠ []) (attached : instruction.AttachesChildren)
      (noTags : instruction.tags = []) : IsInner settings instruction
  | plainMap {attributes : Fields Term} (noChildren : "children" ∉ Fields.names attributes)
      (noExpression : "expression" ∉ Fields.names attributes) :
      IsInner settings { origin := .plainMap attributes }

/-- A root only attaches children. -/
theorem IsRoot.onlyAttaches {name : String} {root : Instruction}
    (isRoot : IsRoot settings name root) : root.OnlyAttaches := by
  refine ⟨?_, isRoot.attached⟩
  intro targetType factory arguments isOrigin
  obtain ⟨attributes, -, isItem⟩ := isRoot.origin
  cases isItem.symm.trans isOrigin
  simp

/-- So do the instructions below it. -/
theorem IsInner.onlyAttaches {instruction : Instruction} (isInner : IsInner settings instruction) :
    instruction.OnlyAttaches := by
  cases isInner with
  | serviceCall =>
      refine ⟨?_, List.Forall₂.nil⟩
      rintro _ _ _ ⟨⟩
      simp
  | node isItem _ _ _ attached =>
      refine ⟨?_, attached⟩
      intro targetType factory arguments isOrigin
      cases isItem.symm.trans isOrigin
      simp
  | serviceReference | expression | plainMap =>
      refine ⟨?_, List.Forall₂.nil⟩
      rintro _ _ _ ⟨⟩

end Instruction

end MenuPlan

/-
# What the text of a plan says

The text of a plan determines its data, and the data of a plan that was compiled determines its
instructions, up to what is written for their terms. So a reader of the text can tell apart whatever
makes a difference for carrying out a plan: keys and their order, kinds, types, factories, the
number of arguments, sources and ids, method calls in order, names of children, the children
themselves and the tags.
-/

import MenuPlan.Proofs.Instruction.Written
import MenuPlan.Proofs.Json.Writing
import MenuPlan.Proofs.Plan.Parts

namespace MenuPlan

/-- A plan with every term as it is written. -/
def Plan.asWritten (plan : Plan) : Plan :=
  Fields.mapValues Instruction.asWritten plan

/-- The instructions of a compiled plan only attach children. -/
theorem Outline.throughout_onlyAttaches {settings : Settings} {outline : Outline}
    {compiled : Compiled} (succeeded : outline.compile settings = .ok compiled)
    {entry : String × Instruction} (member : entry ∈ compiled.plan) :
    Instruction.Throughout Instruction.OnlyAttaches entry.2 := by
  obtain ⟨⟨name, -, isRoot⟩, parts⟩ := isRoot_of_mem_plan succeeded member
  refine ⟨isRoot.onlyAttaches, ?_⟩
  intro part isPart
  exact (parts part isPart).imp fun _ isInner => isInner.onlyAttaches

/-- Plans of such instructions have the same data exactly if they are equal up to what is written
for their terms. -/
theorem Plan.toData_eq_iff_asWritten_eq {first second : Plan}
    (plain : ∀ entry ∈ first, Instruction.Throughout Instruction.OnlyAttaches entry.2)
    (otherPlain : ∀ entry ∈ second, Instruction.Throughout Instruction.OnlyAttaches entry.2) :
    first.toData = second.toData ↔ first.asWritten = second.asWritten := by
  have sameEntry : ∀ entry ∈ first, ∀ other ∈ second,
      (entry.1, entry.2.toData) = (other.1, other.2.toData) ↔
        (entry.1, entry.2.asWritten) = (other.1, other.2.asWritten) := by
    intro entry isEntry other isOther
    rw [Prod.mk.injEq, Prod.mk.injEq,
      Instruction.toData_eq_iff_asWritten_eq (plain entry isEntry) (otherPlain other isOther)]
  rw [Plan.toData, Plan.toData, Data.object.injEq]
  constructor
  · apply map_eq_map_of_map_eq_map
    exact fun entry isEntry other isOther => (sameEntry entry isEntry other isOther).mp
  · apply map_eq_map_of_map_eq_map
    exact fun entry isEntry other isOther => (sameEntry entry isEntry other isOther).mpr

namespace Outline

/-- A document with an expression among the options of a menu. -/
def expressionOption : Outline where
  menus := [("main", {
    options := [("owner", .string "@user()")]
    items := [("home", .object [("children", .object [("about", .null)])])] })]

/-- A document with an object that is written like this expression. -/
def objectOption : Outline where
  menus := [("main", {
    items := [("home", .object [("service", .null), ("children", .object [("about", .object [])])])]
    attributes := [("owner", .object [("$expression", .string "user()")])] })]

/-- Two plans, whatever documents and settings they were compiled from, have the same text exactly
if they have the same keys in the same order, with instructions that are equal when every term in
them is replaced by what is written for it. -/
theorem compiled_plans_written_eq_iff (settings others : Settings) (outline other : Outline)
    (compiled compiledOther : Compiled) (succeeded : outline.compile settings = .ok compiled)
    (otherSucceeded : other.compile others = .ok compiledOther) (layout : Json.Layout) :
    Json.write layout 0 compiled.plan.toData = Json.write layout 0 compiledOther.plan.toData ↔
      compiled.plan.asWritten = compiledOther.plan.asWritten := by
  have sameData : compiled.plan.toData = compiledOther.plan.toData ↔
      compiled.plan.asWritten = compiledOther.plan.asWritten :=
    Plan.toData_eq_iff_asWritten_eq (fun _ member => throughout_onlyAttaches succeeded member)
      (fun _ member => throughout_onlyAttaches otherSucceeded member)
  rw [← sameData]
  constructor
  · exact Json.write_inj
  · intro same
    rw [same]

/-- The plans of the two documents, under settings that differ, are equal up to the expression. -/
theorem expressionOption_written_eq_objectOption :
    ∃ compiled compiledOther, expressionOption.compile {} = .ok compiled ∧
      objectOption.compile { strictItems := false } = .ok compiledOther ∧
      compiled.plan.asWritten = compiledOther.plan.asWritten := by
  have sameData : (expressionOption.compile {}).map (fun compiled => compiled.plan.toData) =
      (objectOption.compile { strictItems := false }).map fun compiled => compiled.plan.toData := by
    cbv
  have isOk : (expressionOption.compile {}).isOk = true := by cbv
  cases succeeded : expressionOption.compile {} with
  | error error =>
      rw [succeeded] at isOk
      cases isOk
  | ok compiled =>
      cases otherSucceeded : objectOption.compile { strictItems := false } with
      | error error =>
          rw [succeeded, otherSucceeded] at sameData
          cases sameData
      | ok compiledOther =>
          rw [succeeded, otherSucceeded] at sameData
          refine ⟨compiled, compiledOther, rfl, rfl, ?_⟩
          apply (compiled_plans_written_eq_iff {} { strictItems := false } expressionOption
            objectOption compiled compiledOther succeeded otherSucceeded .compact).mp
          exact congrArg (Json.write .compact 0) (Except.ok.inj sameData)

end Outline

end MenuPlan

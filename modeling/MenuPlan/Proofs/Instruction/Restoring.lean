/-
# Instructions that are restored

What is written for an instruction is restored if this is so of its terms and of the instructions
that it attaches. The rest of it consists of strings under names that do not repeat.
-/

import MenuPlan.Proofs.Instruction.Written
import MenuPlan.Proofs.Json.Restoring
import MenuPlan.Proofs.Term.Canonical

namespace MenuPlan

open Json (Restored restored_array_iff restored_object_iff restored_null restored_bool
  restored_string)

namespace Term

/-- What is written for a string is a string, or an expression. -/
theorem restored_ofText (text : String) : Restored (ofText text).toData := by
  rw [ofText]
  split
  · exact restored_string text
  · split_ifs
    · exact restored_string text
    · exact restored_string _
    · exact Json.restored_single (restored_string _)

end Term

namespace Data

mutual

/-- What is written for a value is restored if the value is. -/
theorem restored_inPlan : ∀ {value : Data}, Restored value → Restored (inPlan value)
  | .null, _ => restored_null
  | .bool b, _ => restored_bool b
  | .number _, restored => restored
  | .string text, _ => by
      rw [inPlan, Term.ofData]
      exact Term.restored_ofText text
  | .array items, restored => by
      rw [restored_array_iff] at restored
      rw [inPlan_array, restored_array_iff, List.forall_mem_map]
      exact restored_items_inPlan restored
  | .object members, restored => by
      obtain ⟨distinct, each⟩ := restored_object_iff.mp restored
      rw [inPlan_object, Fields.mapValues]
      exact Json.restored_of_distinct distinct (restored_members_inPlan each)

theorem restored_items_inPlan : ∀ {items : List Data}, (∀ item ∈ items, Restored item) →
    ∀ item ∈ items, Restored (inPlan item)
  | [], _ => List.forall_mem_nil _
  | item :: rest, each => by
      obtain ⟨first, later⟩ := List.forall_mem_cons.mp each
      exact List.forall_mem_cons.mpr ⟨restored_inPlan first, restored_items_inPlan later⟩

theorem restored_members_inPlan : ∀ {members : List (String × Data)},
    (∀ entry ∈ members, Restored entry.2) → ∀ entry ∈ members, Restored (inPlan entry.2)
  | [], _ => List.forall_mem_nil _
  | (_, value) :: rest, each => by
      obtain ⟨first, later⟩ := List.forall_mem_cons.mp each
      exact List.forall_mem_cons.mpr ⟨restored_inPlan first, restored_members_inPlan later⟩

end

end Data

namespace Term

/-- The members of an object get their meaning one by one. -/
theorem ofMembers_eq_mapValues (members : Fields Data) :
    ofMembers members = Fields.mapValues ofData members := by
  induction members with
  | nil => rfl
  | cons member rest ih => rw [ofMembers, ih]; rfl

/-- No name is repeated among the attributes, and what is written for them is restored. -/
def RestoredEntries (attributes : Fields Term) : Prop :=
  Fields.Distinct attributes ∧ ∀ entry ∈ attributes, Restored entry.2.toData

namespace RestoredEntries

variable {attributes : Fields Term}

/-- This is what it takes to restore the object that is written for them. -/
theorem toData (restored : RestoredEntries attributes) :
    Restored (.object (entriesToData attributes)) := by
  rw [entriesToData_eq_mapValues, Fields.mapValues]
  exact Json.restored_of_distinct restored.1 restored.2

/-- The terms of an object are restored if the object is. -/
theorem ofMembers {members : Fields Data} (restored : Restored (.object members)) :
    RestoredEntries (ofMembers members) := by
  obtain ⟨distinct, each⟩ := restored_object_iff.mp restored
  rw [ofMembers_eq_mapValues]
  refine ⟨?_, ?_⟩
  · rwa [Fields.Distinct, Fields.names_mapValues]
  · rw [Fields.mapValues, List.forall_mem_map]
    exact fun entry member => Data.restored_inPlan (each entry member)

/-- Overriding attributes by others. -/
theorem overlay (restored : RestoredEntries attributes) {entries : Fields Term}
    (each : ∀ entry ∈ entries, Restored entry.2.toData) :
    RestoredEntries (Fields.overlay attributes entries) := by
  refine ⟨restored.1.overlay entries, ?_⟩
  intro entry member
  rcases Fields.mem_of_mem_overlay member with old | new
  · exact restored.2 entry old
  · exact each entry new

/-- Leaving an attribute out. -/
theorem erase (restored : RestoredEntries attributes) (name : String) :
    RestoredEntries (Fields.erase attributes name) :=
  ⟨restored.1.erase name, fun entry member => restored.2 entry (List.mem_of_mem_filter member)⟩

end RestoredEntries

end Term

namespace Instruction

/-- What is written for an instruction is restored if this is so of its parts. -/
theorem restored_toData {instruction : Instruction}
    (origin : ∀ entry ∈ originMembers instruction.origin, Restored entry.2)
    (calls : ∀ call ∈ instruction.calls, Restored (callToData call))
    (tags : ∀ entry ∈ tagMembers instruction.tags, Restored entry.2) :
    Restored (toData instruction) := by
  obtain ⟨isOrigin, isCalls, isTags⟩ := instruction
  have distinct : Fields.Distinct (originMembers isOrigin ++
      memberUnlessEmpty "method_calls" (callsToData isCalls) ++ tagMembers isTags) := by
    rw [tagMembers]
    cases isOrigin <;> cases callsToData isCalls <;> split_ifs <;>
      simp [Fields.Distinct, originMembers, memberUnlessEmpty]
  have eachCall : ∀ entry ∈ memberUnlessEmpty "method_calls" (callsToData isCalls),
      Restored entry.2 := by
    have isArray : Restored (.array (callsToData isCalls)) := by
      rw [callsToData_eq_map, restored_array_iff, List.forall_mem_map]
      exact calls
    cases written : callsToData isCalls with
    | nil => exact List.forall_mem_nil _
    | cons first rest =>
        rw [written] at isArray
        exact List.forall_mem_cons.mpr ⟨isArray, List.forall_mem_nil _⟩
  rw [toData, restored_object_iff]
  refine ⟨distinct, ?_⟩
  intro entry member
  rcases List.mem_append.mp member with early | isTag
  · rcases List.mem_append.mp early with isMember | isCall
    · exact origin entry isMember
    · exact eachCall entry isCall
  · exact tags entry isTag

/-- The call of a factory is written with restored arguments if all of them are. -/
theorem restored_factoryCall {targetType : String} {factory : FactoryRef}
    {arguments : List Argument}
    (each : ∀ argument ∈ arguments, Restored (argumentToData argument)) :
    ∀ entry ∈ originMembers (.factoryCall targetType factory arguments), Restored entry.2 := by
  have isFactory : Restored factory.toData := by
    rw [FactoryRef.toData, restored_object_iff]
    simp [Fields.Distinct]
  have isArray : Restored (.array (argumentsToData arguments)) := by
    rw [argumentsToData_eq_map, restored_array_iff, List.forall_mem_map]
    exact each
  simp [originMembers, isFactory, isArray]

/-- A call that attaches a child is restored if the child is. -/
theorem restored_addChild (name : String) {child : Instruction}
    (restored : Restored (toData child)) : Restored (callToData (Call.addChild name child)) := by
  have isArray : Restored (.array (argumentsToData (Call.addChild name child).arguments)) := by
    rw [Call.addChild, restored_array_iff]
    split_ifs <;>
      simp [argumentsToData, argumentToData, Term.text, Term.toData, restored]
  rw [Call.addChild] at isArray ⊢
  rw [callToData, restored_object_iff]
  simp [Fields.Distinct, isArray]

/-- Tags are strings under names. -/
theorem restored_tag (tag name : String) :
    ∀ entry ∈ tagMembers [(tag, [[("alias", name)]])], Restored entry.2 := by
  have isAlias : Restored (.array [attributesToData [("alias", name)]]) := by
    rw [restored_array_iff]
    refine List.forall_mem_cons.mpr ⟨?_, List.forall_mem_nil _⟩
    exact Json.restored_single (restored_string name)
  refine List.forall_mem_cons.mpr ⟨?_, List.forall_mem_nil _⟩
  exact Json.restored_single isAlias

end Instruction

end MenuPlan

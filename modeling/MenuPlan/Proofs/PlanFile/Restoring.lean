/-
# Plan files that are restored

A plan file is written as text and read back as data. For a document whose numbers are integers that
fit 64 bits the data is what has been written, to the last member: nothing is lost in indentation, in
the escapes of strings or in the order of members. Larger integers do not keep to this. Up to 128
bits the document is refused; beyond them an integer is read like a number with a fraction, as the
nearest binary64 number, and that may come back as its neighbour.
-/

import MenuPlan.Proofs.Plan.Restoring
import MenuPlan.Proofs.PlanFile.Loading

namespace MenuPlan

open Json (Restored restored_object_iff restored_string)

namespace PlanFile

/-- A plan file is restored if its plan is. -/
theorem restored_toData {file : PlanFile} (plan : Restored file.entries.toData) :
    Restored file.toData := by
  have version : Restored (.ofNat formatVersion) := Json.restored_int 1 (by decide)
  have source : Restored file.source.toData := by
    rw [SourceDocument.toData, restored_object_iff]
    simp [Fields.Distinct]
  rw [toData, restored_object_iff]
  refine ⟨by simp [Fields.Distinct, versionName], ?_⟩
  simp only [List.forall_mem_cons]
  exact ⟨version, restored_string _, restored_string _, source, plan, List.forall_mem_nil _⟩

end PlanFile

namespace FileTree

/-- A plan file is built from the text of its document. -/
theorem planFile_eq_ok_iff {tree : FileTree} {settings : Settings} {compiledAt path text : String}
    {file : PlanFile} {warnings : List Warning} (isText : tree.document path = .ok text) :
    tree.planFile settings compiledAt path = .ok (file, warnings) ↔
      ∃ compiled, Outline.compileText settings text = .ok compiled ∧
        file = ⟨compiledAt, SourceDocument.ofText path text, compiled.plan⟩ ∧
        warnings = compiled.warnings := by
  rw [planFile, isText, ok_bind, PlanFile.ofText, bind_eq_ok_iff]
  apply exists_congr
  intro compiled
  apply and_congr_right
  intro _
  constructor
  · rintro ⟨⟩
    exact ⟨rfl, rfl⟩
  · rintro ⟨rfl, rfl⟩
    rfl

theorem document_withDocument (text : String) :
    (withDocument text).document "menu.yaml" = .ok text := by
  rw [document, readText_writeText (writeText_withDocument text)]

/-- What is loaded of the plan file of a document that does not nest too deep. -/
theorem exists_loaded_of_depth {text : String} {depth : Nat}
    (isDepth : (Outline.compileText {} text).toOption.map
      (fun compiled => compiled.plan.toData.depth) = some depth)
    (fits : depth < Json.depthLimit) :
    ∃ file warnings written,
      (withDocument text).planFile {} "now" "menu.yaml" = .ok (file, warnings) ∧
      (withDocument text).writePlanFile file "plan.json" = .ok written ∧
      written.loadPlanFile "plan.json" = .ok (Json.reread file.toData) := by
  obtain ⟨_, file, warnings, written, -, isBuilt, isWritten, isEntries, depthOfPlan⟩ :=
    exists_written_of_depth isDepth
  refine ⟨file, warnings, written, isBuilt, isWritten, ?_⟩
  rw [loadPlanFile_writePlanFile isWritten, PlanFile.depth_toData, isEntries, depthOfPlan,
    if_pos (Nat.succ_le_of_lt fits)]

/-- A document with quotes, backslashes, control characters and characters beyond ASCII in its names
and texts, with an empty array, and with both ends of the range of integers. -/
def hardToWrite : String :=
  String.ofList ("menus:\n  \"m\\\"\\n\":\n".toList
    ++ "    limits: [18446744073709551615, -9223372036854775808, []]\n".toList
    ++ "    title: \"\\u0001\\\\ö\"\n".toList
    ++ "    items: \x7bx: \x7broute: \x7bname: r, parameters: \x7bn: -1\x7d\x7d\x7d\x7d\n".toList)

/-- The value of the document. -/
def hardToWriteRoot : Data :=
  .object [("menus", .object [("m\"\n", .object [
    ("limits", .array [
      .number (.int 18446744073709551615 (by decide)),
      .number (.int (-9223372036854775808) (by decide)),
      .array []]),
    ("title", .string "\x01\\ö"),
    ("items", .object [("x", .object [("route", .object [
      ("name", .string "r"),
      ("parameters", .object [("n", .number (.int (-1) (by decide)))])])])])])])]

/-- A document with a single number, an integer of 129 bits. -/
def largeNumeral : String :=
  "menus: \x7bm: \x7bx: 400864197523086419752308641975230864192\x7d\x7d"

/-- If all numbers in the text of a document are integers that fit 64 bits, signed or unsigned, then
what is loaded of its plan file is the data that has been written, with the same members in the same
order at every level and the same strings and numbers. Its entries are those of the plan that this
text is compiled to, and its source is the document with this text. -/
theorem loadPlanFile_restores_integral_document (tree written : FileTree) (settings : Settings)
    (compiledAt path out text : String) (file : PlanFile) (warnings : List Warning) (loaded : Data)
    (isText : tree.document path = .ok text)
    (integral : ∀ root, Yaml.read? text = some root → root.Integral)
    (isBuilt : tree.planFile settings compiledAt path = .ok (file, warnings))
    (isWritten : tree.writePlanFile file out = .ok written)
    (isLoaded : written.loadPlanFile out = .ok loaded) :
    loaded = file.toData ∧
      ∃ compiled, Outline.compileText settings text = .ok compiled ∧
        loaded.member? "entries" = some compiled.plan.toData ∧
        loaded.member? "source" = some (SourceDocument.ofText path text).toData := by
  obtain ⟨compiled, succeeded, rfl, -⟩ := (planFile_eq_ok_iff isText).mp isBuilt
  have plan := Outline.restored_plan_of_compileText integral succeeded
  have restored : Restored (PlanFile.toData
      ⟨compiledAt, SourceDocument.ofText path text, compiled.plan⟩) :=
    PlanFile.restored_toData plan
  rw [loadPlanFile_writePlanFile isWritten] at isLoaded
  split_ifs at isLoaded
  cases isLoaded
  rw [restored]
  exact ⟨rfl, compiled, succeeded, rfl, rfl⟩

/-- The plan file of this document is loaded as it has been written. -/
theorem hardToWrite_restored :
    ∃ file warnings written compiled,
      (withDocument hardToWrite).planFile {} "now" "menu.yaml" = .ok (file, warnings) ∧
      (withDocument hardToWrite).writePlanFile file "plan.json" = .ok written ∧
      written.loadPlanFile "plan.json" = .ok file.toData ∧
      Outline.compileText {} hardToWrite = .ok compiled ∧
      file.toData.member? "entries" = some compiled.plan.toData := by
  have isRead : Yaml.read? hardToWrite = some hardToWriteRoot := by
    decide +kernel
  have integral : ∀ root, Yaml.read? hardToWrite = some root → root.Integral := by
    rw [isRead]
    rintro _ ⟨⟩
    simp [hardToWriteRoot, Data.Integral, Data.IntegralItems, Data.IntegralMembers]
  have isDepth : (Outline.compileText {} hardToWrite).toOption.map
      (fun compiled => compiled.plan.toData.depth) = some 8 := by
    rw [Outline.compileText_of_read? isRead]
    decide +kernel
  obtain ⟨file, warnings, written, isBuilt, isWritten, isLoaded⟩ :=
    exists_loaded_of_depth isDepth (by decide)
  obtain ⟨same, compiled, succeeded, entries, -⟩ := loadPlanFile_restores_integral_document _ _ _ _
    _ _ _ _ _ _ (document_withDocument hardToWrite) integral isBuilt isWritten isLoaded
  rw [same] at isLoaded entries
  exact ⟨file, warnings, written, compiled, isBuilt, isWritten, isLoaded, succeeded, entries⟩

/-- Integers beyond the range are another matter. The reader of documents takes one of 129 bits for a
binary64 number, and what is loaded for that is its neighbour. -/
theorem largeNumeral_not_restored :
    ∃ file warnings written loaded,
      (withDocument largeNumeral).planFile {} "now" "menu.yaml" = .ok (file, warnings) ∧
      (withDocument largeNumeral).writePlanFile file "plan.json" = .ok written ∧
      written.loadPlanFile "plan.json" = .ok loaded ∧ loaded ≠ file.toData := by
  have isDepth : (Outline.compileText {} largeNumeral).toOption.map
      (fun compiled => compiled.plan.toData.depth) = some 5 := by
    decide +kernel
  have isChanged : (Outline.compileText {} largeNumeral).toOption.map
      (fun compiled => decide (Restored compiled.plan.toData)) = some false := by
    decide +kernel
  obtain ⟨file, warnings, written, isBuilt, isWritten, isLoaded⟩ :=
    exists_loaded_of_depth isDepth (by decide)
  refine ⟨file, warnings, written, _, isBuilt, isWritten, isLoaded, ?_⟩
  intro restored
  obtain ⟨compiled, succeeded, rfl, -⟩ :=
    (planFile_eq_ok_iff (document_withDocument largeNumeral)).mp isBuilt
  have plan : Restored compiled.plan.toData := by
    apply (restored_object_iff.mp restored).2 ("entries", compiled.plan.toData)
    simp
  rw [succeeded] at isChanged
  exact of_decide_eq_false (Option.some.inj isChanged) plan

end FileTree

end MenuPlan

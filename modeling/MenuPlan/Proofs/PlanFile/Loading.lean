/-
# Loading plan files

A plan file that has been written is loaded exactly if its data lies within the reader's limit of
nested arrays and objects. The limit of the document does not see to that: a document may nest as
deep as the plan file, and compiling it adds levels. The document at the end nests 126 deep, is
compiled and written, and cannot be loaded.
-/

import Mathlib
import MenuPlan.PlanFile
import MenuPlan.Proofs.FileTree
import MenuPlan.Proofs.Json.RoundTrip
import MenuPlan.Proofs.Steps

namespace MenuPlan

namespace PlanFile

/-- The version is read back. -/
theorem checkVersion_reread (file : PlanFile) :
    checkVersion (Json.reread file.toData) = .ok () := by
  have inRange : InRange 1 := by
    decide
  have isVersion : Json.reread (.ofNat formatVersion) = .number (.int 1 inRange) := by
    show Json.reread (.number (.int 1 inRange)) = _
    rw [Json.reread, Json.rereadNumber_int]
  have isFound :
      (Json.reread file.toData).member? versionName = some (.number (.int 1 inRange)) := by
    rw [toData, Json.reread, Data.ofMembers, Fields.ofEntries_of_distinct]
    · rw [Data.member?, Json.rereadMembers, Fields.get?, if_pos rfl, isVersion]
    · rw [Fields.Distinct, Json.names_rereadMembers]
      show [versionName, "compiled_at", "compiler_version", "source", "entries"].Nodup
      decide
  rw [checkVersion, version?, isFound]
  rfl

/-- What is loaded from the text of a plan file. -/
theorem load_text (file : PlanFile) :
    load file.text =
      if file.toData.depth ≤ Json.depthLimit then .ok (Json.reread file.toData)
      else .error (.json malformed) := by
  have isText : file.text = String.ofList (Json.write .indented 0 file.toData ++ ['\n']) := by
    rw [text, Json.indented, String.ofList_append]
  have isBlank : ∀ c ∈ ['\n'], Json.Token.isBlank c = true := by
    simp [Json.Token.isBlank]
  rw [load, isText, Json.read?_write .indented file.toData isBlank]
  by_cases fits : file.toData.depth ≤ Json.depthLimit
  · rw [if_pos fits, if_pos fits]
    dsimp only
    rw [checkVersion_reread]
    rfl
  · rw [if_neg fits, if_neg fits]

/-- The plan is the deepest member. -/
theorem depth_toData (file : PlanFile) : file.toData.depth = file.entries.toData.depth + 1 := by
  have positive : 0 < file.entries.toData.depth := by
    rw [Plan.toData, Data.depth]
    exact Nat.succ_pos _
  have isVersion : (Data.ofNat formatVersion).depth = 0 := by
    show (Data.number _).depth = 0
    rw [Data.depth]
  simp only [toData, SourceDocument.toData, Data.depth, Data.depthMembers, isVersion]
  omega

end PlanFile

namespace FileTree

variable {tree written : FileTree} {settings : Settings} {compiledAt path out : String}
  {file : PlanFile} {warnings : List Warning}

/-- A plan file holds the plan of its document. -/
theorem compile_of_planFile
    (isBuilt : tree.planFile settings compiledAt path = .ok (file, warnings)) :
    ∃ compiled, tree.compile settings path = .ok compiled ∧ file.entries = compiled.plan := by
  rw [planFile, bind_eq_ok_iff] at isBuilt
  obtain ⟨text, isText, isBuilt⟩ := isBuilt
  rw [PlanFile.ofText, bind_eq_ok_iff] at isBuilt
  obtain ⟨compiled, isCompiled, isFile⟩ := isBuilt
  cases isFile
  refine ⟨compiled, ?_, rfl⟩
  rw [compile, isText, ok_bind, isCompiled]

/-- What is loaded where a plan file has been written. -/
theorem loadPlanFile_writePlanFile (isWritten : tree.writePlanFile file out = .ok written) :
    written.loadPlanFile out =
      if file.toData.depth ≤ Json.depthLimit then .ok (Json.reread file.toData)
      else .error (.json PlanFile.malformed) := by
  have isText : written.readText out = .ok file.text := by
    rw [writePlanFile] at isWritten
    cases result : tree.writeText out file.text with
    | error error =>
        rw [result] at isWritten
        cases isWritten
    | ok next =>
        rw [result] at isWritten
        cases isWritten
        exact readText_writeText result
  have isDocument : written.document out = .ok file.text := by
    rw [document, isText]
  rw [loadPlanFile, isDocument, ok_bind, PlanFile.load_text]

/-- A plan file that has been built from a document and written is loaded again exactly if the plan
nests less than the reader's limit; else it is refused as malformed text, never for its version. -/
theorem loadPlanFile_isOk_iff_depth_lt
    (isBuilt : tree.planFile settings compiledAt path = .ok (file, warnings))
    (isWritten : tree.writePlanFile file out = .ok written) :
    ∃ compiled, tree.compile settings path = .ok compiled ∧
      ((∃ data, written.loadPlanFile out = .ok data) ↔
        compiled.plan.toData.depth < Json.depthLimit) ∧
      (written.loadPlanFile out = .error (.json PlanFile.malformed) ↔
        Json.depthLimit ≤ compiled.plan.toData.depth) := by
  obtain ⟨compiled, isCompiled, isPlan⟩ := compile_of_planFile isBuilt
  refine ⟨compiled, isCompiled, ?_⟩
  rw [loadPlanFile_writePlanFile isWritten, PlanFile.depth_toData, isPlan]
  by_cases fits : compiled.plan.toData.depth + 1 ≤ Json.depthLimit
  · rw [if_pos fits]
    refine ⟨⟨fun _ => fits, fun _ => ⟨_, rfl⟩⟩, ⟨nofun, fun tooDeep => ?_⟩⟩
    omega
  · rw [if_neg fits]
    refine ⟨⟨nofun, fun small => absurd small fits⟩, ⟨fun _ => ?_, fun _ => rfl⟩⟩
    omega

/-- Where a document has been written, its plan is compiled and built. -/
theorem compile_writeText (compiledAt : String) {text : String} {next : FileTree}
    {compiled : Compiled} (isWritten : tree.writeText path text = .ok next)
    (isCompiled : Outline.compileText settings text = .ok compiled) :
    next.compile settings path = .ok compiled ∧
      next.planFile settings compiledAt path =
        .ok (⟨compiledAt, SourceDocument.ofText path text, compiled.plan⟩, compiled.warnings) := by
  have isDocument : next.document path = .ok text := by
    rw [document, readText_writeText isWritten]
  constructor
  · rw [compile, isDocument, ok_bind, isCompiled]
  · rw [planFile, isDocument, ok_bind, PlanFile.ofText, isCompiled]
    rfl

/-! ## A document that nests too deep to be loaded -/

/-- A document with one menu, an attribute of which is this many arrays inside each other. -/
def nestedDocument (count : Nat) : String :=
  String.ofList ("\x7b\"menus\":\x7b\"m\":\x7b\"x\":".toList ++ List.replicate count '['
    ++ List.replicate count ']' ++ "\x7d\x7d\x7d".toList)

/-- A tree with one file, a document. -/
def withDocument (text : String) : FileTree :=
  FileTree.put {} ["menu.yaml"] (.file text.toUTF8)

theorem writeText_withDocument (text : String) :
    FileTree.writeText {} "menu.yaml" text = .ok (withDocument text) := by
  have isTarget : FileTree.target {} "menu.yaml" = .ok ["menu.yaml"] := by
    decide +kernel
  rw [writeText, isTarget]
  rfl

theorem writePlanFile_withDocument (text : String) (file : PlanFile) :
    (withDocument text).writePlanFile file "plan.json" =
      .ok ((withDocument text).put ["plan.json"] (.file file.text.toUTF8)) := by
  have isTarget : (withDocument text).target "plan.json" = .ok ["plan.json"] := by
    rfl
  rw [writePlanFile, writeText, isTarget]
  rfl

/-- A document whose plan is known to have some depth can be built and written. -/
theorem exists_written_of_depth {text : String} {depth : Nat}
    (isDepth : (Outline.compileText {} text).toOption.map
      (fun compiled => compiled.plan.toData.depth) = some depth) :
    ∃ compiled file warnings written,
      (withDocument text).compile {} "menu.yaml" = .ok compiled ∧
      (withDocument text).planFile {} "now" "menu.yaml" = .ok (file, warnings) ∧
      (withDocument text).writePlanFile file "plan.json" = .ok written ∧
      file.entries = compiled.plan ∧ compiled.plan.toData.depth = depth := by
  cases isCompiled : Outline.compileText {} text with
  | error error =>
      rw [isCompiled] at isDepth
      cases isDepth
  | ok compiled =>
      rw [isCompiled] at isDepth
      obtain ⟨isPlan, isBuilt⟩ :=
        compile_writeText "now" (writeText_withDocument text) isCompiled
      exact ⟨compiled, _, _, _, isPlan, isBuilt, writePlanFile_withDocument text _, rfl,
        Option.some.inj isDepth⟩

/-- One array is no problem. -/
theorem nestedDocument_one_loaded :
    ∃ file warnings written,
      (withDocument (nestedDocument 1)).planFile {} "now" "menu.yaml" = .ok (file, warnings) ∧
      (withDocument (nestedDocument 1)).writePlanFile file "plan.json" = .ok written ∧
      ∃ data, written.loadPlanFile "plan.json" = .ok data := by
  have isDepth : (Outline.compileText {} (nestedDocument 1)).toOption.map
      (fun compiled => compiled.plan.toData.depth) = some 5 := by
    decide +kernel
  obtain ⟨compiled, file, warnings, written, isPlan, isBuilt, isWritten, -, depth⟩ :=
    exists_written_of_depth isDepth
  obtain ⟨same, isSame, loads, -⟩ := loadPlanFile_isOk_iff_depth_lt isBuilt isWritten
  rw [isPlan] at isSame
  cases isSame
  have shallow : compiled.plan.toData.depth < Json.depthLimit := by
    rw [depth]
    decide
  exact ⟨file, warnings, written, isBuilt, isWritten, loads.mpr shallow⟩

/-- With 123 arrays the document nests 126 deep and the plan 127 deep, which leaves no room for the
object around the plan. -/
theorem nestedDocument_not_loaded :
    ∃ file warnings written,
      (withDocument (nestedDocument 123)).planFile {} "now" "menu.yaml" = .ok (file, warnings) ∧
      (withDocument (nestedDocument 123)).writePlanFile file "plan.json" = .ok written ∧
      written.loadPlanFile "plan.json" = .error (.json PlanFile.malformed) := by
  have isDepth : (Outline.compileText {} (nestedDocument 123)).toOption.map
      (fun compiled => compiled.plan.toData.depth) = some 127 := by
    decide +kernel
  obtain ⟨compiled, file, warnings, written, isPlan, isBuilt, isWritten, isEntries, depth⟩ :=
    exists_written_of_depth isDepth
  refine ⟨file, warnings, written, isBuilt, isWritten, ?_⟩
  rw [loadPlanFile_writePlanFile isWritten, PlanFile.depth_toData, isEntries, depth]
  rfl

end FileTree

end MenuPlan

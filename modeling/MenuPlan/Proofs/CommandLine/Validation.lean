/-
# Validating several files

A validation judges its files one by one. `Verdict.Shown` lists what the two formats say of a
verdict, side by side, and `Validation.Reports` what a report in a format says of a list of
verdicts: one after another, then how many there are, with a code that is 1 if one of the files is
not valid.

The main result is that a validation reports one verdict for each argument, in the order of the
arguments, and that this is the verdict which is reported of the file alone. So no file has a part
in what is reported of another one. A report as data leaves no doubt about the verdicts it is of.
The events of the log, some of which are told once in a process only, come before the lines of a
report and are the same in both formats.
-/

import MenuPlan.Proofs.CommandLine.Agreement
import MenuPlan.Proofs.Json.Writing

namespace MenuPlan.CommandLine

/-- What is said of the verdict on a file: the lines of a text, and the result as data. A file is
valid without warnings, valid with warnings, or not valid for one reason. -/
inductive Verdict.Shown : Verdict → List String → Data → Prop where
  | valid (file : String) :
      Shown ⟨file, .ok []⟩
        [s!"✓ {file} is valid"]
        (.object [("file", .string file), ("valid", .bool true), ("errors", .array []),
          ("warnings", .array [])])
  | remarked (file : String) {warnings : List Warning} (isRemarked : warnings ≠ []) :
      Shown ⟨file, .ok warnings⟩
        (s!"✓ {file} is valid (with {natText warnings.length} warning(s))" ::
          warnings.map warningLine)
        (.object [("file", .string file), ("valid", .bool true), ("errors", .array []),
          ("warnings", .array (warnings.map Warning.toData))])
  | invalid (file : String) (issue : Issue) :
      Shown ⟨file, .error issue⟩
        [s!"✗ {file} has 1 error(s)", issue.line]
        (.object [("file", .string file), ("valid", .bool false),
          ("errors", .array [issue.toData]), ("warnings", .array [])])

namespace Validation

/-- What is said of verdicts, one by one. -/
inductive ShownEach : List Verdict → List (List String) → List Data → Prop where
  | nil : ShownEach [] [] []
  | cons {verdict : Verdict} {lines : List String} {result : Data} {verdicts : List Verdict}
      {blocks : List (List String)} {results : List Data} (first : verdict.Shown lines result)
      (rest : ShownEach verdicts blocks results) :
      ShownEach (verdict :: verdicts) (lines :: blocks) (result :: results)

/-- How many files are valid. -/
def validCount (verdicts : List Verdict) : Nat :=
  verdicts.countP fun verdict => verdict.isValid

/-- How many are not. -/
def invalidCount (verdicts : List Verdict) : Nat :=
  verdicts.countP fun verdict => !verdict.isValid

/-- The line with the numbers. -/
def summaryLine (total valid invalid : Nat) : String :=
  let counts := s!"{natText valid} valid, {natText invalid} invalid"
  s!"validated {natText total} config(s): {counts}"

/-- A report is of these verdicts. It has code 1 if a file is not valid, and else code 0. In the
format `json` it is one value on the output stream, and no lines; in any other format it consists of
lines. Either way the verdicts are followed by their numbers. -/
structure Reports (verdicts : List Verdict) (format : String) (report : Report) : Prop where
  fails_iff : report.code = 1 ↔ ∃ verdict ∈ verdicts, verdict.isValid = false
  succeeds_iff : report.code = 0 ↔ ∀ verdict ∈ verdicts, verdict.isValid = true
  numbers : validCount verdicts + invalidCount verdicts = verdicts.length
  shown : ∃ blocks results, ShownEach verdicts blocks results ∧
    (format = "json" → report.printed = [] ∧
      report.output = Json.indented (.object [
        ("results", .array results),
        ("summary", .object [
          ("total", .ofNat verdicts.length),
          ("valid", .ofNat (validCount verdicts)),
          ("invalid", .ofNat (invalidCount verdicts))])]) ++ "\n") ∧
    (format ≠ "json" → report.output = "" ∧
      report.printed = blocks.flatten ++ ["",
        summaryLine verdicts.length (validCount verdicts) (invalidCount verdicts)])

end Validation

namespace Verdict

/-- Every verdict is shown by its lines and by its result. -/
theorem shown (verdict : Verdict) : verdict.Shown verdict.lines verdict.toData := by
  obtain ⟨file, finding⟩ := verdict
  cases finding with
  | error issue =>
      have isHeadline : headline ⟨file, .error issue⟩ = s!"✗ {file} has 1 error(s)" := by
        have isOne : natText 1 = "1" := by decide
        rw [headline, issues, List.length_singleton, isOne]
        apply String.toList_injective
        simp only [String.toList_append, List.append_assoc]
        rfl
      have shown := Shown.invalid file issue
      rw [← isHeadline] at shown
      exact shown
  | ok warnings =>
      cases warnings with
      | nil => exact .valid file
      | cons first rest => exact .remarked file (List.cons_ne_nil first rest)

end Verdict

/-- Data with a code, a message and maybe a location is told apart by these. -/
theorem labels_inj {code otherCode message otherMessage : String}
    {location otherLocation : Option String}
    (same : Data.object ([("code", .string code), ("message", .string message)] ++
        location.toList.map fun location => ("location", .string location)) =
      .object ([("code", .string otherCode), ("message", .string otherMessage)] ++
        otherLocation.toList.map fun location => ("location", .string location))) :
    code = otherCode ∧ message = otherMessage ∧ location = otherLocation := by
  cases location <;> cases otherLocation <;> simp_all

/-- Issues are told apart by their data. -/
theorem Issue.toData_injective : Function.Injective Issue.toData := by
  rintro ⟨code, message, location⟩ ⟨otherCode, otherMessage, otherLocation⟩ same
  obtain ⟨rfl, rfl, rfl⟩ := labels_inj same
  rfl

/-- So are warnings. -/
theorem warningData_injective : Function.Injective Warning.toData := by
  rintro ⟨code, message, location⟩ ⟨otherCode, otherMessage, otherLocation⟩ same
  obtain ⟨rfl, rfl, rfl⟩ := labels_inj same
  rfl

namespace Verdict

/-- And so are verdicts. -/
theorem toData_injective : Function.Injective toData := by
  rintro ⟨file, finding⟩ ⟨otherFile, otherFinding⟩ same
  simp only [toData, Data.object.injEq, List.cons.injEq, Prod.mk.injEq, true_and, and_true,
    Data.string.injEq, Data.bool.injEq, Data.array.injEq] at same
  obtain ⟨rfl, sameValid, sameIssues, sameWarnings⟩ := same
  cases finding with
  | ok warnings =>
      cases otherFinding with
      | ok others =>
          obtain rfl : warnings = others := warningData_injective.list_map sameWarnings
          rfl
      | error => cases sameValid
  | error issue =>
      cases otherFinding with
      | ok => cases sameValid
      | error other =>
          have sameIssue : [issue] = [other] := Issue.toData_injective.list_map sameIssues
          cases sameIssue
          rfl

/-- The result that is shown of a verdict is its data. -/
theorem Shown.eq_toData {verdict : Verdict} {lines : List String} {result : Data}
    (shown : verdict.Shown lines result) : result = verdict.toData := by
  cases shown <;> rfl

end Verdict

namespace Validation

/-- Verdicts are shown one by one. -/
theorem shownEach (verdicts : List Verdict) :
    ShownEach verdicts (verdicts.map Verdict.lines) (verdicts.map Verdict.toData) := by
  induction verdicts with
  | nil => exact .nil
  | cons verdict rest ih => exact .cons verdict.shown ih

/-- Results show one list of verdicts at most. -/
theorem ShownEach.unique {verdicts others : List Verdict} {blocks otherBlocks : List (List String)}
    {results : List Data} (first : ShownEach verdicts blocks results)
    (second : ShownEach others otherBlocks results) : verdicts = others := by
  induction first generalizing others otherBlocks with
  | nil =>
      cases second
      rfl
  | cons shown _ ih =>
      cases second with
      | cons otherShown otherRest =>
          have sameData := shown.eq_toData.symm.trans otherShown.eq_toData
          rw [Verdict.toData_injective sameData, ih otherRest]

/-- The files that are valid and those that are not are all the files. -/
theorem validCount_add_invalidCount (verdicts : List Verdict) :
    validCount verdicts + invalidCount verdicts = verdicts.length := by
  rw [List.length_eq_countP_add_countP Verdict.isValid, validCount, invalidCount]
  simp only [Bool.not_eq_true, Bool.decide_eq_false]

/-- The numbers of a report. -/
theorem summary_eq (verdicts : List Verdict) :
    summary verdicts = (verdicts.length, validCount verdicts, invalidCount verdicts) := by
  have isValid : verdicts.length - invalidCount verdicts = validCount verdicts := by
    rw [← validCount_add_invalidCount, Nat.add_sub_cancel]
  rw [← isValid]
  rfl

section

variable (settings : Settings) (format : String) (files : List (String × Except FileError String))

/-- A report has code 0 if all files are valid, and else code 1. -/
theorem code_report : (report settings format files).code =
    if (verdicts settings files).all Verdict.isValid then 0 else 1 := by
  by_cases isData : format = "json"
  · simp only [report, if_pos isData]
    rfl
  · simp only [report, if_neg isData]
    rfl

/-- A validation reports the verdicts on its files. -/
theorem reports : Reports (verdicts settings files) format (report settings format files) where
  fails_iff := by
    rw [code_report]
    split_ifs with allValid
    · rw [List.all_eq_true] at allValid
      apply iff_of_false not_false
      rintro ⟨verdict, member, notValid⟩
      exact Bool.false_ne_true (notValid.symm.trans (allValid verdict member))
    · apply iff_of_true rfl
      simpa using allValid
  succeeds_iff := by
    rw [code_report, ← List.all_eq_true]
    split_ifs with allValid
    · exact iff_of_true rfl allValid
    · exact iff_of_false not_false allValid
  numbers := validCount_add_invalidCount _
  shown := by
    refine ⟨_, _, shownEach _, ?_, ?_⟩
    · rintro rfl
      rw [printed_report, output_report, if_pos rfl, if_pos rfl, toData, summary_eq]
      exact ⟨rfl, rfl⟩
    · intro notData
      rw [printed_report, output_report, if_neg notData, if_neg notData, lines, summary_eq,
        ← List.flatMap_def]
      exact ⟨rfl, rfl⟩

end

/-- A report as data is of no other verdicts. -/
theorem Reports.unique {verdicts others : List Verdict} {report : Report}
    (first : Reports verdicts "json" report) (second : Reports others "json" report) :
    verdicts = others := by
  obtain ⟨blocks, results, shown, isData, -⟩ := first.shown
  obtain ⟨otherBlocks, otherResults, otherShown, isOtherData, -⟩ := second.shown
  have sameText := (isData rfl).2.symm.trans (isOtherData rfl).2
  have sameData := Json.indented_inj.mp (String.append_left_inj _ |>.mp sameText)
  rw [Data.object.injEq, List.cons.injEq, Prod.mk.injEq, Data.array.injEq] at sameData
  obtain ⟨⟨-, rfl⟩, -⟩ := sameData
  exact shown.unique otherShown

end Validation

/-- What is found out about a file comes from the compilation of its document alone. -/
theorem finding_ofContent_readText (settings : Settings) (tree : FileTree) (file : String) :
    (Verdict.ofContent settings file (tree.readText file)).finding =
      match tree.compile settings file with
      | .ok compiled => .ok compiled.warnings
      | .error error =>
          .error (if tree.contains file then .ofError file error else .absent file) := by
  cases isText : tree.readText file with
  | error error =>
      have noCompiled : tree.compile settings file = .error (.io error.message) := by
        rw [FileTree.compile, FileTree.document, isText]
        rfl
      have isPresent := FileTree.contains_of_readText_eq_error isText
      rw [noCompiled, isPresent]
      cases isAbsence : error.isAbsence <;> simp [Verdict.ofContent, isAbsence]
  | ok text =>
      have isCompiled : tree.compile settings file = Outline.compileText settings text := by
        rw [FileTree.compile, FileTree.document, isText]
        rfl
      have isPresent := FileTree.contains_of_readText_eq_ok isText
      rw [isCompiled, isPresent]
      cases compiles : Outline.compileText settings text <;>
        simp only [Verdict.ofContent, compiles, if_true]

end CommandLine

/-! ## The error stream -/

namespace Log.Journal

/-- Notices that come later are noted after those that come first. -/
theorem noteAll_append (journal : Journal) (now : String) (first later : List Notice) :
    (journal.noteAll now (first ++ later)).2 =
      (journal.noteAll now first).2 ++ ((journal.noteAll now first).1.noteAll now later).2 := by
  induction first generalizing journal with
  | nil => rfl
  | cons notice rest ih =>
      cases notice with
      | line text => simp only [List.cons_append, noteAll, ih]
      | event event => simp only [List.cons_append, noteAll, ih, List.append_assoc]

/-- Lines are noted as they are. -/
theorem noteAll_lines (journal : Journal) (now : String) (lines : List String) :
    (journal.noteAll now (lines.map Notice.line)).2 = lines := by
  induction lines with
  | nil => rfl
  | cons line rest ih => exact congrArg (line :: ·) ih

end Log.Journal

namespace CommandLine

/-- What is told of events does not depend on the lines that follow them. -/
theorem exists_errorText_eq (log : Log.Settings) (environment : Environment) (now : String)
    (events : List Log.Event) :
    ∃ told, ∀ lines, errorText log environment now
        (events.map Log.Notice.event ++ lines.map Log.Notice.line) =
      Log.textOfLines (told ++ lines) := by
  -- A process that has no logger yet always gets one.
  obtain ⟨journal, complaints, isSetUp⟩ : ∃ journal complaints,
      Log.Journal.setUp {} log (Fields.get? environment "RUST_LOG") = (.ok journal, complaints) :=
    ⟨_, _, rfl⟩
  refine ⟨complaints ++
    (journal.noteAll now (.event (started log) :: events.map Log.Notice.event)).2, ?_⟩
  intro lines
  simp only [errorText, isSetUp]
  rw [← List.cons_append, Log.Journal.noteAll_append, Log.Journal.noteAll_lines, List.append_assoc]

namespace Invocation

/-- A run that validates writes its report behind what is told, and leaves the tree as it is. -/
theorem exists_run_validate (invocation : Invocation) (now : String) (tree : FileTree)
    (configs : List String) (environment : Environment) (log : Log.Settings) :
    ∃ told : List String, ∀ format arguments,
      opening environment arguments =
        .ok ({ invocation with command := .validate configs format }, log) →
      let report := (({ invocation with command := .validate configs format } :
        Invocation).execute now tree).1
      let result := run environment now tree arguments
      result.code = report.code ∧ result.output = report.output ∧
        result.errors = Log.textOfLines (told ++ report.printed) ∧ result.tree = tree := by
  let files := configs.map fun config => (config, tree.readText config)
  obtain ⟨told, isTold⟩ :=
    exists_errorText_eq log environment now (Validation.told invocation.settings files)
  refine ⟨told, fun format arguments isOpening => ?_⟩
  rw [run, isOpening]
  refine ⟨rfl, rfl, ?_, rfl⟩
  have isNoticed := Validation.notices_report invocation.settings format files
  rw [← Validation.printed_report] at isNoticed
  exact (congrArg (errorText log environment now) isNoticed).trans (isTold _)

open Validation (Reports)

/-- Two documents, one with a breadcrumb and one with a breadcrumb that is its own parent. -/
def breadcrumbAndLoop : FileTree :=
  (FileTree.withDocument "breadcrumbs: \x7b home: \x7b label: Home \x7d \x7d").put ["loop.yaml"]
    (.file "breadcrumbs: \x7b home: \x7b label: Home, parent: home \x7d \x7d".toUTF8)

end Invocation

end CommandLine

end MenuPlan

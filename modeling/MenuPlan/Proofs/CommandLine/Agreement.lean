/-
# Validating and compiling agree

The two commands go different ways: one compiles the document in a file and keeps the warnings or the
error as a verdict, the other builds a plan file of it, prints the warnings and writes the plan. For
every tree of files they come to the same end. A file is valid with some warnings exactly if the
compilation prints these and comes to writing, whether or not the plan can be written; and it is
invalid exactly if the compilation stops with one line before anything is written, which gives the
message of the verdict.

What a report prints are its lines; the events of the log are told beside them and are no part of it.
-/

import MenuPlan.CommandLine.Run
import MenuPlan.Proofs.PlanFile.Loading

namespace MenuPlan

namespace FileTree

variable {tree : FileTree} {path : String}

/-- A path that leads nowhere ends at a name that does not exist, or at a step from a file. -/
theorem isAbsence_of_find {error : FileError} (fails : tree.find path = .error error) :
    error.isAbsence = true := by
  have onStep : ∀ location name error, tree.step location name = .error error →
      error.isAbsence = true := by
    intro location name error isError
    rw [step] at isError
    split at isError
    · split_ifs at isError
    · cases isError
      rfl
    · cases isError
      rfl
  have onPath : ∀ (names : List String) (location : Location) (error : FileError),
      names.foldlM tree.step location = .error error → error.isAbsence = true := by
    intro names
    induction names with
    | nil =>
        intro location error isError
        cases isError
    | cons name rest ih =>
        intro location error isError
        rw [List.foldlM_cons, bind_eq_error_iff] at isError
        rcases isError with isError | ⟨next, -, isError⟩
        · exact onStep location name error isError
        · exact ih next error isError
  rw [find, bind_eq_error_iff] at fails
  rcases fails with noLocation | ⟨location, -, noEntry⟩
  · rw [locate] at noLocation
    split_ifs at noLocation
    · cases noLocation
      rfl
    · exact onPath _ _ _ noLocation
  · split at noEntry
    · cases noEntry
    · cases noEntry
      rfl

/-- A text is read only where there is something. -/
theorem contains_of_readText_eq_ok {text : String} (isText : tree.readText path = .ok text) :
    tree.contains path = true := by
  obtain ⟨entry, isEntry, -⟩ := bind_eq_ok_iff.mp isText
  rw [contains, isEntry]
  rfl

/-- Reading fails for an absence exactly where there is nothing. -/
theorem contains_of_readText_eq_error {error : FileError}
    (fails : tree.readText path = .error error) : tree.contains path = !error.isAbsence := by
  rw [readText, bind_eq_error_iff] at fails
  rcases fails with noEntry | ⟨entry, isEntry, fails⟩
  · rw [contains, noEntry, isAbsence_of_find noEntry]
    rfl
  · rw [contains, isEntry]
    split at fails
    · cases fails
      rfl
    · split at fails
      · cases fails
      · cases fails
        rfl

end FileTree

namespace CommandLine

/-- The text of a notice that is a line of its own. -/
def lineOf? : Log.Notice → Option String
  | .line text => some text
  | .event _ => none

/-- The lines that a report prints beside the log. -/
def Report.printed (report : Report) : List String :=
  report.notices.filterMap lineOf?

/-- Events are not printed. -/
theorem filterMap_lineOf?_events (events : List Log.Event) :
    (events.map Log.Notice.event).filterMap lineOf? = [] := by
  rw [List.filterMap_map, List.filterMap_eq_nil_iff]
  exact fun _ _ => rfl

/-- Lines are. -/
theorem filterMap_lineOf?_lines {α : Type} (items : List α) (text : α → String) :
    (items.map fun item => Log.Notice.line (text item)).filterMap lineOf? = items.map text := by
  rw [List.filterMap_map]
  exact congrFun List.filterMap_eq_map items

namespace Compilation

/-- A compilation has printed these warnings and come to writing this plan: to the output stream, to
a file, or to a path where no file can be written. -/
inductive Writes (tree : FileTree) (config : String) (plan : PlanFile) (warnings : List Warning) :
    Option String → Report × FileTree → Prop where
  | stream {report : Report} (succeeds : report.code = 0) (output : report.output = plan.text)
      (printed : report.printed = warnings.map warningLine) :
      Writes tree config plan warnings none (report, tree)
  | file {path : String} {report : Report} {after : FileTree}
      (isWritten : tree.writeText path plan.text = .ok after) (succeeds : report.code = 0)
      (output : report.output = "")
      (printed : report.printed = warnings.map warningLine ++
        [s!"compiled {config} to {path} ({natText plan.entries.length} entries)"]) :
      Writes tree config plan warnings (some path) (report, after)
  | nowhere {path : String} {report : Report} {error : FileError}
      (isRefused : tree.writeText path plan.text = .error error) (fails : report.code = 1)
      (output : report.output = "")
      (printed : report.printed = warnings.map warningLine ++
        ["error: failed to write plan: I/O error: " ++ error.message]) :
      Writes tree config plan warnings (some path) (report, tree)

/-- A compilation has stopped with one line before anything was written. -/
structure StopsWith (tree : FileTree) (line : String) (run : Report × FileTree) : Prop where
  fails : run.1.code = 1
  output : run.1.output = ""
  printed : run.1.printed = [line]
  unchanged : run.2 = tree

/-- No compilation that stops before writing comes to writing: a plan that cannot be written is
reported by a line of its own. -/
theorem StopsWith.not_writes {tree : FileTree} {line config : String} {run : Report × FileTree}
    (stops : StopsWith tree line run) (isCause : line.toList[7]? = some 'c') {plan : PlanFile}
    {warnings : List Warning} {output : Option String} :
    ¬ Writes tree config plan warnings output run := by
  intro writes
  cases writes with
  | stream succeeds _ _ => cases succeeds.symm.trans stops.fails
  | file _ succeeds _ _ => cases succeeds.symm.trans stops.fails
  | nowhere _ _ _ printed =>
      have lastLine := congrArg List.getLast? (printed.symm.trans stops.printed)
      rw [List.getLast?_concat, List.getLast?_singleton, Option.some_inj] at lastLine
      rw [← lastLine] at isCause
      simp [String.toList_append] at isCause

variable {settings : Settings} {now config : String} {tree : FileTree} {output : Option String}

/-- Without a plan file to write, a compilation stops. -/
theorem stopsWith_of_prepare {notices : List Log.Notice} {line : String}
    (isStopped : prepare settings now config (tree.readText config) = .error notices)
    (printed : notices.filterMap lineOf? = [line]) :
    StopsWith tree line (run settings now tree config output) := by
  unfold run
  rw [isStopped]
  exact ⟨rfl, rfl, printed, rfl⟩

/-- With one, it comes to writing. -/
theorem writes_of_prepare {prepared : Prepared} {warnings : List Warning}
    (isPrepared : prepare settings now config (tree.readText config) = .ok prepared)
    (printed : prepared.notices.filterMap lineOf? = warnings.map warningLine) :
    Writes tree config prepared.file warnings output (run settings now tree config output) := by
  unfold run
  rw [isPrepared]
  cases output with
  | none => exact .stream rfl rfl printed
  | some path =>
      dsimp only
      cases isWritten : tree.writeText path prepared.file.text with
      | ok after =>
          refine .file isWritten rfl rfl ?_
          rw [Report.printed, written, List.filterMap_append, printed]
          rfl
      | error error =>
          refine .nowhere isWritten rfl rfl ?_
          rw [Report.printed, unwritten, List.filterMap_append, printed]
          rfl

/-- Of a document that does not compile, only the error is printed. -/
theorem filterMap_lineOf?_failureNotices (told : List Log.Event) (config : String)
    (error : CompileError) :
    (told.map Log.Notice.event ++ failureNotices config error).filterMap lineOf? =
      ["error: compilation failed: " ++ error.message] := by
  rw [List.filterMap_append, filterMap_lineOf?_events]
  rfl

/-- A document that compiles is prepared for writing, and its warnings are printed. -/
theorem exists_prepared (now config : String) {text : String} {compiled : Compiled}
    (isCompiled : Outline.compileText settings text = .ok compiled) :
    ∃ prepared, prepare settings now config (.ok text) = .ok prepared ∧
      prepared.file = ⟨now, SourceDocument.ofText config text, compiled.plan⟩ ∧
      prepared.notices.filterMap lineOf? = compiled.warnings.map warningLine := by
  have isFile : PlanFile.ofText settings now config text =
      .ok (⟨now, SourceDocument.ofText config text, compiled.plan⟩, compiled.warnings) := by
    rw [PlanFile.ofText, isCompiled]
    rfl
  simp only [prepare, isFile]
  refine ⟨_, rfl, rfl, ?_⟩
  rw [List.filterMap_append, List.filterMap_append, filterMap_lineOf?_events,
    filterMap_lineOf?_lines]
  exact List.append_nil _

end Compilation

/-! ## What both commands make of a file -/

open Compilation (Writes StopsWith)

variable (settings : Settings) (now file : String) (tree : FileTree) (output : Option String)

/-- A file does not exist, or its document does not compile, or it does; with what comes of it when it
is validated, built and compiled. -/
inductive Fate : Prop where
  | absent (isAbsent : tree.contains file = false)
      (finding : (Verdict.ofContent settings file (tree.readText file)).finding =
        .error (.absent file))
      (noPlan : (tree.planFile settings now file).isOk = false)
      (stops : StopsWith tree ("error: config file not found: " ++ file)
        (Compilation.run settings now tree file output))
  | refused {error : CompileError} (isPresent : tree.contains file = true)
      (isError : tree.compile settings file = .error error)
      (finding : (Verdict.ofContent settings file (tree.readText file)).finding =
        .error (.ofError file error))
      (noPlan : (tree.planFile settings now file).isOk = false)
      (stops : StopsWith tree ("error: compilation failed: " ++ error.message)
        (Compilation.run settings now tree file output))
  | compiled {result : Compiled} {plan : PlanFile}
      (isCompiled : tree.compile settings file = .ok result)
      (finding : (Verdict.ofContent settings file (tree.readText file)).finding =
        .ok result.warnings)
      (isBuilt : tree.planFile settings now file = .ok (plan, result.warnings))
      (writes : Writes tree file plan result.warnings output
        (Compilation.run settings now tree file output))

/-- A file that cannot be read. -/
theorem fate_of_readText_eq_error {error : FileError}
    (isError : tree.readText file = .error error) : Fate settings now file tree output := by
  have isPresent := FileTree.contains_of_readText_eq_error isError
  have noDocument : tree.document file = .error (.io error.message) := by
    rw [FileTree.document, isError]
  have noPlan : (tree.planFile settings now file).isOk = false := by
    rw [FileTree.planFile, noDocument]
    rfl
  cases isAbsence : error.isAbsence with
  | true =>
      rw [isAbsence] at isPresent
      have isStopped : Compilation.prepare settings now file (tree.readText file) =
          .error [.line ("error: config file not found: " ++ file)] := by
        rw [isError]
        exact if_pos isAbsence
      refine .absent isPresent ?_ noPlan (Compilation.stopsWith_of_prepare isStopped rfl)
      rw [isError]
      exact congrArg Except.error (if_pos isAbsence)
  | false =>
      have noAbsence : ¬ error.isAbsence = true := by
        rw [isAbsence]
        exact Bool.false_ne_true
      rw [isAbsence] at isPresent
      have noCompiled : tree.compile settings file = .error (.io error.message) := by
        rw [FileTree.compile, noDocument]
        rfl
      have isStopped : Compilation.prepare settings now file (tree.readText file) =
          .error (Compilation.failureNotices file (.io error.message)) := by
        rw [isError]
        exact if_neg noAbsence
      refine .refused isPresent noCompiled ?_ noPlan (Compilation.stopsWith_of_prepare isStopped rfl)
      rw [isError]
      exact congrArg Except.error (if_neg noAbsence)

/-- A file whose text is read. -/
theorem fate_of_readText_eq_ok {text : String} (isText : tree.readText file = .ok text) :
    Fate settings now file tree output := by
  have isDocument : tree.document file = .ok text := by
    rw [FileTree.document, isText]
  cases isCompiled : Outline.compileText settings text with
  | error error =>
      have noFile : PlanFile.ofText settings now file text = .error error := by
        rw [PlanFile.ofText, isCompiled]
        rfl
      have isStopped : Compilation.prepare settings now file (tree.readText file) =
          .error ((Narration.ofText settings text).map Log.Notice.event ++
            Compilation.failureNotices file error) := by
        simp only [isText, Compilation.prepare, noFile]
      refine .refused (FileTree.contains_of_readText_eq_ok isText) ?_ ?_ ?_
        (Compilation.stopsWith_of_prepare isStopped
          (Compilation.filterMap_lineOf?_failureNotices _ file error))
      · rw [FileTree.compile, isDocument, ok_bind, isCompiled]
      · simp only [isText, Verdict.ofContent, isCompiled]
      · rw [FileTree.planFile, isDocument, ok_bind, noFile]
        rfl
  | ok result =>
      obtain ⟨prepared, isPrepared, isFile, printed⟩ :=
        Compilation.exists_prepared now file isCompiled
      rw [← isText] at isPrepared
      refine .compiled ?_ ?_ ?_ (Compilation.writes_of_prepare isPrepared printed)
      · rw [FileTree.compile, isDocument, ok_bind, isCompiled]
      · simp only [isText, Verdict.ofContent, isCompiled]
      · rw [FileTree.planFile, isDocument, ok_bind, PlanFile.ofText, isCompiled, isFile]
        rfl

/-- Every file has its fate. -/
theorem fate : Fate settings now file tree output := by
  cases isText : tree.readText file with
  | error error => exact fate_of_readText_eq_error settings now file tree output isText
  | ok text => exact fate_of_readText_eq_ok settings now file tree output isText

/-- A file is valid with the warnings of its plan file, which the compilation prints before it writes
the plan. -/
theorem finding_eq_ok_iff (warnings : List Warning) :
    (Verdict.ofContent settings file (tree.readText file)).finding = .ok warnings ↔
      ∃ plan, tree.planFile settings now file = .ok (plan, warnings) ∧
        Writes tree file plan warnings output (Compilation.run settings now tree file output) := by
  cases fate settings now file tree output with
  | absent _ finding noPlan _ | refused _ _ finding noPlan _ =>
      apply iff_of_false
      · rw [finding]
        exact nofun
      · rintro ⟨plan, isBuilt, -⟩
        rw [isBuilt] at noPlan
        cases noPlan
  | compiled _ finding isBuilt writes =>
      rw [finding, isBuilt]
      constructor
      · rintro ⟨⟩
        exact ⟨_, rfl, writes⟩
      · rintro ⟨plan, ⟨⟩, -⟩
        rfl

/-- A file is valid exactly if its compilation comes to writing. -/
theorem isValid_iff_exists_writes :
    (Verdict.ofContent settings file (tree.readText file)).isValid = true ↔
      ∃ plan warnings, Writes tree file plan warnings output
        (Compilation.run settings now tree file output) := by
  rw [Verdict.isValid]
  cases fate settings now file tree output with
  | absent _ finding _ stops =>
      rw [finding]
      exact iff_of_false Bool.false_ne_true fun ⟨_, _, writes⟩ =>
        stops.not_writes (by simp [String.toList_append]) writes
  | refused _ _ finding _ stops =>
      rw [finding]
      exact iff_of_false Bool.false_ne_true fun ⟨_, _, writes⟩ =>
        stops.not_writes (by simp [String.toList_append]) writes
  | compiled _ finding _ writes =>
      rw [finding]
      exact iff_of_true rfl ⟨_, _, writes⟩

/-- The issue of a file is that it does not exist, or its error; the compilation stops for the same
reason. -/
theorem finding_eq_error_iff (issue : Issue) :
    (Verdict.ofContent settings file (tree.readText file)).finding = .error issue ↔
      (tree.contains file = false ∧ issue = .absent file ∧
        StopsWith tree ("error: config file not found: " ++ file)
          (Compilation.run settings now tree file output)) ∨
      ∃ error, tree.contains file = true ∧ tree.compile settings file = .error error ∧
        issue = .ofError file error ∧
        StopsWith tree ("error: compilation failed: " ++ issue.message)
          (Compilation.run settings now tree file output) := by
  cases fate settings now file tree output with
  | absent isAbsent finding _ stops =>
      rw [finding]
      constructor
      · rintro ⟨⟩
        exact .inl ⟨isAbsent, rfl, stops⟩
      · rintro (⟨-, rfl, -⟩ | ⟨_, isPresent, -⟩)
        · rfl
        · cases isAbsent.symm.trans isPresent
  | refused isPresent isError finding _ stops =>
      rw [finding]
      constructor
      · rintro ⟨⟩
        exact .inr ⟨_, isPresent, isError, rfl, stops⟩
      · rintro (⟨isAbsent, -⟩ | ⟨_, -, isOther, rfl, -⟩)
        · cases isAbsent.symm.trans isPresent
        · cases isError.symm.trans isOther
          rfl
  | compiled isCompiled finding _ writes =>
      rw [finding]
      apply iff_of_false nofun
      rintro (⟨-, -, stops⟩ | ⟨error, -, isError, -⟩)
      · exact stops.not_writes (by simp [String.toList_append]) writes
      · cases isCompiled.symm.trans isError

/-- The issue that an error makes of a file, field by field. -/
theorem Issue.eq_ofError_iff {issue : Issue} {file : String} {error : CompileError} :
    issue = .ofError file error ↔
      issue.code = error.code.getD "E2000" ∧ issue.message = error.message ∧
        issue.location = some (match error with
          | .validation location _ => file ++ ":" ++ location
          | _ => file) := by
  cases issue
  cases error <;> exact iff_of_eq (Issue.mk.injEq ..)

namespace Validation

section

variable (format : String) (files : List (String × Except FileError String))

/-- The verdicts on files with their contents. -/
def verdicts : List Verdict :=
  files.map fun (file, content) => Verdict.ofContent settings file content

/-- What is told while files with these contents are validated. -/
def told : List Log.Event :=
  files.flatMap fun (_, content) => events settings content

/-- What a validation gives notice of: what is told of the files, and then, if the format is not
data, the lines of the verdicts. -/
theorem notices_report : (report settings format files).notices =
    (told settings files).map Log.Notice.event ++
      (if format = "json" then [] else lines (verdicts settings files)).map Log.Notice.line := by
  rw [told, List.map_flatMap]
  by_cases isData : format = "json"
  · simp only [report, if_pos isData]
    exact (List.append_nil _).symm
  · simp only [report, if_neg isData]
    rfl

/-- The lines of a report are those of the verdicts, if the format is not data. -/
theorem printed_report : (report settings format files).printed =
    if format = "json" then [] else lines (verdicts settings files) := by
  rw [Report.printed, notices_report, List.filterMap_append, filterMap_lineOf?_events,
    List.nil_append]
  exact (filterMap_lineOf?_lines _ id).trans (List.map_id _)

/-- The output stream has the verdicts as data, if this is the format. -/
theorem output_report : (report settings format files).output =
    if format = "json" then Json.indented (toData (verdicts settings files)) ++ "\n" else "" := by
  by_cases isData : format = "json"
  · simp only [report, if_pos isData]
    rfl
  · simp only [report, if_neg isData]

end

end Validation

/-- A validation reports the verdicts on the files, in their order: as JSON on the output stream, or as
lines. -/
theorem report_of_validate (files : List String) (format : String) :
    let verdicts := files.map fun file => Verdict.ofContent settings file (tree.readText file)
    let report := Validation.report settings format
      (files.map fun file => (file, tree.readText file))
    if format = "json" then report.output = Json.indented (Validation.toData verdicts) ++ "\n"
    else report.printed = Validation.lines verdicts := by
  intro verdicts report
  have areVerdicts : Validation.verdicts settings
      (files.map fun file => (file, tree.readText file)) = verdicts := List.map_map ..
  split_ifs with isJson
  · rw [Validation.output_report, if_pos isJson, areVerdicts]
  · rw [Validation.printed_report, if_neg isJson, areVerdicts]

namespace Invocation

end Invocation

end CommandLine

end MenuPlan

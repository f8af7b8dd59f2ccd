/-
# Validating documents

The verdict on one file says whether its document compiles: what is wrong with it if not, and the
remarks on it if it does. A validation gives one verdict for each file, in the order of the files,
and reports them as text on the error stream or as JSON on the output stream. It fails when one of
the files is not valid.
-/

import MenuPlan.CommandLine.Report
import MenuPlan.Narration
import MenuPlan.PlanFile

namespace MenuPlan.CommandLine

/-- What is wrong with a file. -/
structure Issue where
  code : String
  message : String
  location : Option String
deriving DecidableEq

namespace Issue

/-- The code of what is not an error in a document. -/
def generalCode : String := "E2000"

/-- The issue that a file does not exist. -/
def absent (file : String) : Issue where
  code := generalCode
  message := "file not found: " ++ file
  location := none

/-- The issue that an error makes of a file. -/
def ofError (file : String) (error : CompileError) : Issue where
  code := error.code.getD generalCode
  message := error.message
  location :=
    match error with
    | .validation location _ => some (file ++ ":" ++ location)
    | _ => some file

/-- An issue as data. -/
def toData (issue : Issue) : Data :=
  .object ([("code", .string issue.code), ("message", .string issue.message)]
    ++ issue.location.toList.map fun location => ("location", .string location))

/-- The line of an issue. -/
def line (issue : Issue) : String :=
  match issue.location with
  | some location => s!"  {issue.code} [{location}]: {issue.message}"
  | none => s!"  {issue.code}: {issue.message}"

end Issue

/-- What is found out about a file: an issue, or the remarks on a valid document. -/
structure Verdict where
  file : String
  finding : Except Issue (List Warning)

namespace Verdict

/-- The verdict on a file with this content. -/
def ofContent (settings : Settings) (file : String) (content : Except FileError String) :
    Verdict where
  file
  finding :=
    match content with
    | .error error =>
        .error (if error.isAbsence then .absent file else .ofError file (.io error.message))
    | .ok text =>
        match Outline.compileText settings text with
        | .ok compiled => .ok compiled.warnings
        | .error error => .error (.ofError file error)

/-- Whether the file is valid. -/
def isValid (verdict : Verdict) : Bool :=
  verdict.finding.isOk

/-- What is wrong with the file. -/
def issues (verdict : Verdict) : List Issue :=
  match verdict.finding with
  | .ok _ => []
  | .error issue => [issue]

/-- The remarks on the document. -/
def warnings (verdict : Verdict) : List Warning :=
  match verdict.finding with
  | .ok warnings => warnings
  | .error _ => []

/-- A verdict as data. -/
def toData (verdict : Verdict) : Data :=
  .object [
    ("file", .string verdict.file),
    ("valid", .bool verdict.isValid),
    ("errors", .array (verdict.issues.map Issue.toData)),
    ("warnings", .array (verdict.warnings.map Warning.toData))]

/-- The line that sums up a verdict. -/
def headline (verdict : Verdict) : String :=
  match verdict.finding with
  | .ok [] => s!"✓ {verdict.file} is valid"
  | .ok warnings =>
      let count := natText warnings.length
      s!"✓ {verdict.file} is valid (with {count} warning(s))"
  | .error _ =>
      let count := natText verdict.issues.length
      s!"✗ {verdict.file} has {count} error(s)"

/-- The lines of a verdict. -/
def lines (verdict : Verdict) : List String :=
  verdict.headline :: (verdict.issues.map Issue.line ++ verdict.warnings.map warningLine)

end Verdict

namespace Validation

/-- How many files there are, and how many of them are valid and invalid. -/
def summary (verdicts : List Verdict) : Nat × Nat × Nat :=
  let invalid := verdicts.countP fun verdict => !verdict.isValid
  (verdicts.length, verdicts.length - invalid, invalid)

/-- All verdicts as data. -/
def toData (verdicts : List Verdict) : Data :=
  let (total, valid, invalid) := summary verdicts
  .object [
    ("results", .array (verdicts.map Verdict.toData)),
    ("summary", .object [
      ("total", .ofNat total), ("valid", .ofNat valid), ("invalid", .ofNat invalid)])]

/-- All verdicts as lines. -/
def lines (verdicts : List Verdict) : List String :=
  let (total, valid, invalid) := summary verdicts
  let counts := s!"{natText valid} valid, {natText invalid} invalid"
  verdicts.flatMap Verdict.lines ++ ["", s!"validated {natText total} config(s): {counts}"]

/-- What is told while a file with this content is validated. -/
def events (settings : Settings) (content : Except FileError String) : List Log.Event :=
  match content with
  | .ok text => Narration.ofText settings text
  | .error _ => []

/-- The report on files with their contents. -/
def report (settings : Settings) (format : String)
    (files : List (String × Except FileError String)) : Report :=
  let verdicts := files.map fun (file, content) => Verdict.ofContent settings file content
  let told := files.flatMap fun (_, content) =>
    (events settings content).map Log.Notice.event
  let code := if verdicts.all Verdict.isValid then 0 else 1
  if format = "json" then
    { code, output := Json.indented (toData verdicts) ++ "\n", notices := told }
  else { code, notices := told ++ (lines verdicts).map Log.Notice.line }

end Validation

end MenuPlan.CommandLine

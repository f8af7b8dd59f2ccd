/-
# Compiling a document

The command that compiles runs in two steps. `Compilation.prepare` needs the content of the file
alone and fails before anything is written; what it returns is the plan file, ready to be written.
Then the plan goes to the output stream, or to a file, which may fail as well. So a run that fails
has written nothing.
-/

import MenuPlan.CommandLine.Invocation
import MenuPlan.CommandLine.Report
import MenuPlan.Narration
import MenuPlan.PlanFile

namespace MenuPlan.CommandLine

/-- An event of the program itself. -/
def programEvent (level : Log.Level) (name : String) (fields : Fields Log.Value) : Log.Event where
  level
  target := Invocation.programName
  fields := ("event", .quoted name) :: fields

/-- A plan file that is ready to be written, and what has been told before. -/
structure Prepared where
  file : PlanFile
  notices : List Log.Notice

namespace Compilation

/-- What is told of a document that does not compile. -/
def failureNotices (config : String) (error : CompileError) : List Log.Notice := [
  .event (programEvent .error "compile_failed"
    [("config", .plain config), ("error", .plain error.message)]),
  .line ("error: compilation failed: " ++ error.message)]

/-- The event that a document has been compiled. -/
def compiled (config : String) (file : PlanFile) (warnings : List Warning) : Log.Event :=
  programEvent .info "compiled" [
    ("config", .plain config),
    ("entries", .count file.entries.length),
    ("warnings", .count warnings.length)]

/-- The plan file for the document with this content; what is told if there is none. -/
def prepare (settings : Settings) (now config : String) (content : Except FileError String) :
    Except (List Log.Notice) Prepared :=
  match content with
  | .error error =>
      if error.isAbsence then .error [.line ("error: config file not found: " ++ config)]
      else .error (failureNotices config (.io error.message))
  | .ok text =>
      let told := (Narration.ofText settings text).map Log.Notice.event
      match PlanFile.ofText settings now config text with
      | .error error => .error (told ++ failureNotices config error)
      | .ok (file, warnings) =>
          .ok {
            file
            notices := told ++ warnings.map (fun warning => .line (warningLine warning))
              ++ [.event (compiled config file warnings)] }

/-- What is told when the plan has been written to a file. -/
def writtenNotices (config output : String) (file : PlanFile) : List Log.Notice :=
  let entries := natText file.entries.length
  [.event (programEvent .info "artifact_written" [("path", .plain output)]),
    .line s!"compiled {config} to {output} ({entries} entries)"]

/-- What is told when the plan could not be written. -/
def unwrittenNotices (error : FileError) : List Log.Notice :=
  [.line ("error: failed to write plan: " ++ (CompileError.io error.message).message)]

/-- The report when no plan has been prepared. -/
def failed (notices : List Log.Notice) : Report :=
  { code := 1, notices }

/-- The report when the plan goes to the output stream. -/
def printed (prepared : Prepared) : Report :=
  { code := 0, output := prepared.file.text, notices := prepared.notices }

/-- The report when the plan has been written to a file. -/
def written (config output : String) (prepared : Prepared) : Report :=
  { code := 0, notices := prepared.notices ++ writtenNotices config output prepared.file }

/-- The report when the plan could not be written to a file. -/
def unwritten (prepared : Prepared) (error : FileError) : Report :=
  { code := 1, notices := prepared.notices ++ unwrittenNotices error }

/-- Compiles the document in a file of a tree. -/
def run (settings : Settings) (now : String) (tree : FileTree) (config : String)
    (output : Option String) : Report × FileTree :=
  match prepare settings now config (tree.readText config), output with
  | .error notices, _ => (failed notices, tree)
  | .ok prepared, none => (printed prepared, tree)
  | .ok prepared, some path =>
      match tree.writeText path prepared.file.text with
      | .ok after => (written config path prepared, after)
      | .error error => (unwritten prepared error, tree)

end Compilation

end MenuPlan.CommandLine

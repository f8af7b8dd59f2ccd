/-
# Runs of the program

A run of the program on a tree of files: arguments and environment go in; the exit code, what is
written to the two streams, and the tree after the run come out.

Arguments that do not fit end the run with code 2, and so does an unknown format of the log.
Otherwise the log is set up first, the start is told, and the command decides.
-/

import MenuPlan.CommandLine.Compile
import MenuPlan.CommandLine.Validate

namespace MenuPlan.CommandLine

/-- What a run of the program leaves behind. -/
structure Run where
  code : Nat
  output : String := ""
  errors : String := ""
  tree : FileTree

/-- How the program is used. -/
def usageText : String :=
"Usage: navigation [OPTIONS] <COMMAND>

Commands:
  compile   Compile a navigation configuration into a plan
  validate  Validate navigation configurations without writing a plan
  help      Print this text

Options:
      --log-level <LOG_LEVEL>    Filter of the log [default: warn]
      --log-format <LOG_FORMAT>  Format of the log, pretty or json [default: pretty]
  -h, --help                     Print this text
  -V, --version                  Print the version

Options of both commands:
  -c, --config <CONFIG>          Configuration file; validate takes several
      --namespace <NAMESPACE>    Beginning of the keys of the plan [default: navigation]
      --alias-tag <ALIAS_TAG>    Tag of the aliases [default: navigation.menu]
      --lenient                  Accept unknown keys of items

Options of compile:
  -o, --output <OUTPUT>          File for the plan, the output stream if omitted

Options of validate:
      --format <FORMAT>          Format of the report, text or json [default: text]
"

/-- The line of the version. -/
def versionLine : String :=
  Invocation.programName ++ " " ++ PlanFile.compilerVersion ++ "\n"

/-- The report when the arguments ask for no command. -/
def Stop.report : Stop → Report
  | .usage error =>
      { code := 2, notices := [.line ("error: " ++ error.message ++ "\n"), .line usageText] }
  | .help => { code := 0, output := usageText }
  | .version => { code := 0, output := versionLine }

/-- The report when the format of the log is unknown. -/
def unknownFormat (name : String) : Report :=
  { code := 2
    notices := [.line s!"error: invalid log format: {name} (expected pretty or json)"] }

/-- The event that the program has started. -/
def started (log : Log.Settings) : Log.Event :=
  programEvent .info "startup"
    [("service", .plain log.serviceName), ("version", .quoted PlanFile.compilerVersion)]

namespace Invocation

/-- The settings of the log, if its format is known. -/
def log? (invocation : Invocation) : Option Log.Settings :=
  (Log.Format.ofName? invocation.logFormat).map fun format =>
    { level := invocation.logLevel, format }

/-- Carries out a command on a tree. -/
def execute (invocation : Invocation) (now : String) (tree : FileTree) : Report × FileTree :=
  match invocation.command with
  | .compile config output =>
      Compilation.run invocation.settings now tree config output
  | .validate configs format =>
      let files := configs.map fun config => (config, tree.readText config)
      (Validation.report invocation.settings format files, tree)

end Invocation

/-- The text on the error stream, with a log that tells its events at the given time. -/
def errorText (log : Log.Settings) (environment : Environment) (now : String)
    (notices : List Log.Notice) : String :=
  match Log.Journal.setUp {} log (Fields.get? environment "RUST_LOG") with
  | (.ok journal, complaints) =>
      Log.textOfLines (complaints
        ++ (journal.noteAll now (.event (started log) :: notices)).2)
  | (.error error, complaints) => Log.textOfLines (complaints ++ ["error: " ++ error.message])

/-- The text on the error stream without a log. -/
def plainErrorText (notices : List Log.Notice) : String :=
  Log.textOfLines (({} : Log.Journal).noteAll "" notices).2

/-- The invocation with the settings of its log; without them, a report that needs no log. -/
def opening (environment : Environment) (arguments : List String) :
    Except Report (Invocation × Log.Settings) :=
  match Invocation.read environment arguments with
  | .error stop => .error stop.report
  | .ok invocation =>
      match invocation.log? with
      | none => .error (unknownFormat invocation.logFormat)
      | some log => .ok (invocation, log)

/-- Runs the program with arguments. -/
def run (environment : Environment) (now : String) (tree : FileTree) (arguments : List String) :
    Run :=
  match opening environment arguments with
  | .error report =>
      { code := report.code
        output := report.output
        errors := plainErrorText report.notices
        tree }
  | .ok (invocation, log) =>
      let (report, after) := invocation.execute now tree
      { code := report.code
        output := report.output
        errors := errorText log environment now report.notices
        tree := after }

end MenuPlan.CommandLine

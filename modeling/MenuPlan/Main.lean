/-
# The program

Carries out what the command line has been worked out to mean: files are read and written, the time
is taken, and what a report says goes to the streams. Nothing is decided here.
-/

import MenuPlan.CommandLine.Run
import Std.Time.Format

namespace MenuPlan.CommandLine

/-- The variables of the environment that the program asks for. -/
def environmentNames : List String :=
  ["NAVIGATION_LOG_LEVEL", "NAVIGATION_LOG_FORMAT", "RUST_LOG"]

/-- Reads the environment. -/
def currentEnvironment : IO Environment := do
  environmentNames.filterMapM fun name => do
    return (← IO.getEnv name).map fun value => (name, value)

/-- The time, in coordinated universal time. -/
def currentTime : IO String := do
  let now ← Std.Time.Timestamp.now
  let time := Std.Time.DateTime.ofTimestamp now Std.Time.TimeZone.ZoneRules.UTC
  return time.toLeanDateTimeWithZoneString

/-- Whether the code of an error, which may be negated, is this number of the system. -/
def hasNumber (code : UInt32) (number : UInt32) : Bool :=
  code == number || code == 0 - number

/-- The failure that an error means. -/
def fileError : IO.Error → FileError
  | .noFileOrDirectory _ _ _ => .notFound
  | .inappropriateType _ code _ => if hasNumber code 20 then .notDirectory else .isDirectory
  | error => .system (toString error)

/-- Reads the file at a path. -/
def contentAt (path : String) : IO (Except FileError String) := do
  try
    match String.fromUTF8? (← IO.FS.readBinFile path) with
    | some text => return .ok text
    | none => return .error .notText
  catch error => return .error (fileError error)

/-- Writes a file; the failure, if it cannot be written. -/
def writeAt (path text : String) : IO (Option FileError) := do
  try
    IO.FS.writeFile path text
    return none
  catch error => return some (fileError error)

/-- Carries out a command. -/
def perform (invocation : Invocation) (now : String) : IO Report := do
  match invocation.command with
  | .compile config output =>
      match Compilation.prepare invocation.settings now config (← contentAt config), output with
      | .error notices, _ => return Compilation.failed notices
      | .ok prepared, none => return Compilation.printed prepared
      | .ok prepared, some path =>
          match ← writeAt path prepared.file.text with
          | none => return Compilation.written config path prepared
          | some error => return Compilation.unwritten prepared error
  | .validate configs format =>
      let files ← configs.mapM fun config => return (config, ← contentAt config)
      return Validation.report invocation.settings format files

/-- Gives a report, with the text for the error stream, to the system. -/
def deliver (report : Report) (errors : String) : IO UInt32 := do
  IO.eprint errors
  IO.print report.output
  return report.code.toUInt32

/-- Runs the program. -/
def runProgram (arguments : List String) : IO UInt32 := do
  let environment ← currentEnvironment
  match opening environment arguments with
  | .error report => deliver report (plainErrorText report.notices)
  | .ok (invocation, log) =>
      let now ← currentTime
      let report ← perform invocation now
      deliver report (errorText log environment now report.notices)

end MenuPlan.CommandLine

/-- The program. -/
def main (arguments : List String) : IO UInt32 :=
  MenuPlan.CommandLine.runProgram arguments

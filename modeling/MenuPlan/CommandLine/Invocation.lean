/-
# Invocations

What a user asks of the program: to compile one configuration document into a plan, or to validate
any number of them, with the settings of the plan and of the log. The two options of the log may
stand before or behind the name of the command, where the latter counts; without them the
environment is asked, and then the defaults hold.
-/

import MenuPlan.CommandLine.Options
import MenuPlan.Log.Journal
import MenuPlan.Settings

namespace MenuPlan.CommandLine

/-- What the program is to do. -/
inductive Command where
  /-- Compile the document in a file, into another file or to the output stream. -/
  | compile (config : String) (output : Option String)
  /-- Validate the documents in files and report in a format. -/
  | validate (configs : List String) (format : String)
deriving DecidableEq, Repr

/-- What a user asks of the program. -/
structure Invocation where
  command : Command
  settings : Settings
  /-- The filter of the log. -/
  logLevel : String
  /-- The name of the format of the log. -/
  logFormat : String
deriving DecidableEq

/-- Variables of the environment. -/
abbrev Environment := Fields String

namespace Invocation

/-- The name of the program. -/
def programName : String := "navigation"

/-- The options of the log, which every command has. -/
def logOptions : List OptionSpec := [
  { name := "log-level" },
  { name := "log-format" },
  { name := "help", letter := some 'h', kind := .request .help }]

/-- The options before the name of a command. -/
def programOptions : List OptionSpec :=
  { name := "version", letter := some 'V', kind := .request .version } :: logOptions

/-- The options that shape a plan. -/
def planOptions : List OptionSpec := [
  { name := "namespace" },
  { name := "alias-tag" },
  { name := "lenient", kind := .flag }]

/-- The options of the command that compiles. -/
def compileOptions : List OptionSpec :=
  { name := "config", letter := some 'c' } :: { name := "output", letter := some 'o' }
    :: (planOptions ++ logOptions)

/-- The options of the command that validates. -/
def validateOptions : List OptionSpec :=
  { name := "config", letter := some 'c', kind := .values } :: { name := "format" }
    :: (planOptions ++ logOptions)

/-- The value of an option of the log: from behind the command, from before it, from the
environment, or the default. -/
def logOption (environment : Environment) (before behind : Given)
    (name environmentName standard : String) : String :=
  (((Given.value? behind name).or (Given.value? before name)).or
    (Fields.get? environment environmentName)).getD standard

/-- The settings of a plan. -/
def planSettings (given : Given) : Settings :=
  let standard : Settings := {}
  { standard with
    keySpace := (Given.value? given "namespace").getD standard.keySpace
    aliasTag := (Given.value? given "alias-tag").getD standard.aliasTag
    strictItems := !Given.isSet given "lenient" }

/-- Reads the options of a command, which has no other arguments. -/
def readAll (options : List OptionSpec) (arguments : List String) : Except Stop Given := do
  match ← readOptions options {} arguments with
  | (given, []) => return given
  | (_, text :: _) => .error (.usage (.unexpectedArgument text))

/-- Reads what follows the name of a command. -/
def readCommand (name : String) (arguments : List String) : Except Stop (Command × Given) := do
  match name with
  | "compile" =>
      let given ← readAll compileOptions arguments
      match Given.value? given "config" with
      | some config => return (.compile config (Given.value? given "output"), given)
      | none => .error (.usage (.missingOption "config"))
  | "validate" =>
      let given ← readAll validateOptions arguments
      match Given.values given "config" with
      | [] => .error (.usage (.missingOption "config"))
      | configs => return (.validate configs ((Given.value? given "format").getD "text"), given)
  | "help" =>
      match arguments with
      | [] | ["compile"] | ["validate"] | ["help"] => .error .help
      | text :: _ => .error (.usage (.unknownCommand text))
  | _ => .error (.usage (.unknownCommand name))

/-- What a user asks with arguments. -/
def read (environment : Environment) (arguments : List String) : Except Stop Invocation := do
  match ← readOptions programOptions {} arguments with
  | (_, []) => .error (.usage .missingCommand)
  | (before, name :: rest) =>
      let (command, behind) ← readCommand name rest
      let log := logOption environment before behind
      let standard : Log.Settings := {}
      return {
        command
        settings := planSettings behind
        logLevel := log "log-level" "NAVIGATION_LOG_LEVEL" standard.level
        logFormat := log "log-format" "NAVIGATION_LOG_FORMAT" "pretty" }

end Invocation

end MenuPlan.CommandLine

/-
# Reading arguments

How the arguments of a command are read as options and their values. An option is written by its
name behind two dashes or by its letter behind one. A value follows as the next argument, behind an
equals sign, or directly behind a letter; an argument that begins with a dash is never the value of
the option before it. Several letters can share a dash.

Reading ends at the first argument that is neither an option nor a value; what it means is for the
caller to say. Nothing but such arguments may follow two dashes.
-/

import MenuPlan.Fields

namespace MenuPlan.CommandLine

/-- What is wrong with arguments. -/
inductive UsageError where
  | unknownOption (text : String)
  | missingValue (option : String)
  | needlessValue (option : String)
  | repeatedOption (option : String)
  | unexpectedArgument (text : String)
  | missingOption (option : String)
  | missingCommand
  | unknownCommand (name : String)
deriving DecidableEq, Repr

namespace UsageError

/-- The text of the error. -/
def message : UsageError → String
  | unknownOption text => s!"unexpected option '{text}'"
  | missingValue option => s!"a value is required for '--{option}'"
  | needlessValue option => s!"no value can be given for '--{option}'"
  | repeatedOption option => s!"'--{option}' cannot be used multiple times"
  | unexpectedArgument text => s!"unexpected argument '{text}'"
  | missingOption option => s!"'--{option}' is required"
  | missingCommand => "a command is required"
  | unknownCommand name => s!"unknown command '{name}'"

end UsageError

/-- Why no command comes of arguments. -/
inductive Stop where
  | usage (error : UsageError)
  | help
  | version
deriving DecidableEq, Repr

/-- What an option asks for. -/
inductive OptionKind where
  /-- Nothing; being there is what it says. -/
  | flag
  | value
  /-- One or more values, each time it is given. -/
  | values
  /-- To stop reading at once. -/
  | request (stop : Stop)
deriving DecidableEq, Repr

/-- An option. -/
structure OptionSpec where
  name : String
  letter : Option Char := none
  kind : OptionKind := .value
deriving DecidableEq, Repr

/-- How an argument looks. -/
inductive Word where
  | named (name : String) (value : Option String)
  | letters (first : Char) (rest : List Char)
  | separator
  | plain (text : String)
deriving DecidableEq, Repr

namespace Word

/-- How an argument looks; a lone dash is a plain word. -/
def ofText (text : String) : Word :=
  match text.toList with
  | ['-', '-'] => separator
  | '-' :: '-' :: rest =>
      match rest.span (· ≠ '=') with
      | (name, []) => named (String.ofList name) none
      | (name, _ :: value) => named (String.ofList name) (some (String.ofList value))
  | '-' :: first :: rest => letters first rest
  | _ => plain text

end Word

/-- What has been read of the arguments. -/
structure Progress where
  /-- Options with their values, in order; a flag has an empty value. -/
  given : List (String × String) := []
  /-- The option that the next plain word is a value of, and whether it has one already. -/
  awaiting : Option (OptionSpec × Bool) := none
deriving DecidableEq, Repr

namespace Progress

/-- Ends the values of the last option. -/
def close (progress : Progress) : Except UsageError Progress :=
  match progress.awaiting with
  | some (option, false) => .error (.missingValue option.name)
  | _ => .ok { progress with awaiting := none }

/-- Whether an option has been given. -/
def has (progress : Progress) (option : OptionSpec) : Bool :=
  progress.given.any fun (name, _) => name = option.name

/-- Checks that an option may be given here. -/
def checkRepetition (progress : Progress) (option : OptionSpec) : Except UsageError Unit :=
  if option.kind ≠ .values ∧ progress.has option then .error (.repeatedOption option.name)
  else .ok ()

/-- Adds a value of an option. -/
def add (progress : Progress) (option : OptionSpec) (value : String) : Progress :=
  { progress with given := progress.given ++ [(option.name, value)] }

/-- Reads a plain word as a value of the last option. -/
def addValue (progress : Progress) (option : OptionSpec) (value : String) : Progress :=
  let awaiting := if option.kind = .values then some (option, true) else none
  { progress.add option value with awaiting }

/-- Reads an option that has been written with this value behind it. -/
def addOption (progress : Progress) (option : OptionSpec) (value : Option String) :
    Except Stop Progress := do
  let progress ← progress.close.mapError .usage
  (progress.checkRepetition option).mapError .usage
  match option.kind, value with
  | .request stop, none => .error stop
  | .flag, none => .ok (progress.add option "")
  | .request _, some _ | .flag, some _ => .error (.usage (.needlessValue option.name))
  | _, none => .ok { progress with awaiting := some (option, false) }
  | _, some value => .ok (progress.add option value)

/-- Reads an option that is written by its name. -/
def addNamed (options : List OptionSpec) (progress : Progress) (name : String)
    (value : Option String) : Except Stop Progress :=
  match options.find? fun option => option.name = name with
  | some option => progress.addOption option value
  | none => .error (.usage (.unknownOption ("--" ++ name)))

/-- The value directly behind a letter. An equals sign before it is not part of it. -/
def attached : List Char → Option String
  | [] => none
  | '=' :: value => some (String.ofList value)
  | value => some (String.ofList value)

/-- Reads options that are written by their letters. What follows the letter of an option with a
value is its value. -/
def addLetters (options : List OptionSpec) (progress : Progress) :
    Char → List Char → Except Stop Progress
  | letter, rest => do
      match options.find? fun option => option.letter = some letter with
      | none => .error (.usage (.unknownOption (String.ofList ['-', letter])))
      | some option =>
          if option.kind = .value ∨ option.kind = .values then
            progress.addOption option (attached rest)
          else
            let progress ← progress.addOption option none
            match rest with
            | [] => .ok progress
            | next :: rest => addLetters options progress next rest
termination_by _ rest => rest.length

end Progress

/-- Options with their values, in order. -/
abbrev Given := List (String × String)

/-- Reads arguments up to the first that is neither an option nor a value; that one and what follows
it are returned as well. -/
def readOptions (options : List OptionSpec) :
    Progress → List String → Except Stop (Given × List String)
  | progress, [] => do
      let progress ← progress.close.mapError .usage
      return (progress.given, [])
  | progress, argument :: rest =>
      match Word.ofText argument with
      | .plain text =>
          match progress.awaiting with
          | some (option, _) => readOptions options (progress.addValue option text) rest
          | none => .ok (progress.given, argument :: rest)
      | .named name value => do
          readOptions options (← progress.addNamed options name value) rest
      | .letters first letters => do
          readOptions options (← progress.addLetters options first letters) rest
      | .separator => do
          let progress ← progress.close.mapError .usage
          match rest with
          | [] => return (progress.given, [])
          | text :: _ => .error (.usage (.unexpectedArgument text))

namespace Given

/-- The values of an option, in order. -/
def values (given : Given) (name : String) : List String :=
  given.filterMap fun (option, value) => if option = name then some value else none

/-- The value of an option. -/
def value? (given : Given) (name : String) : Option String :=
  (values given name).head?

/-- Whether a flag is there. -/
def isSet (given : Given) (name : String) : Bool :=
  (value? given name).isSome

end Given

end MenuPlan.CommandLine

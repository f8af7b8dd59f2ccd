/-
# Events of a log

An event is something that a program tells about its own work: how important it is, which part of
the program tells it (its target), a message or none, and named values. It is told as a line, in one
of two formats: `pretty` for people, with the level in front and no time, and `json` for programs.
-/

import MenuPlan.Json.Writer
import MenuPlan.Text.Literal

namespace MenuPlan.Log

/-- How important an event is, the most important first. -/
inductive Level where
  | error
  | warn
  | info
  | debug
  | trace
deriving DecidableEq, Repr

namespace Level

/-- The place of a level, counted from one for the most important. -/
def rank : Level → Nat
  | error => 1
  | warn => 2
  | info => 3
  | debug => 4
  | trace => 5

/-- The name of a level in a line. -/
def name : Level → String
  | error => "ERROR"
  | warn => "WARN"
  | info => "INFO"
  | debug => "DEBUG"
  | trace => "TRACE"

end Level

/-- A value of an event. -/
inductive Value where
  /-- A text that stands for itself. -/
  | plain (text : String)
  /-- A text that people see between quotes. -/
  | quoted (text : String)
  | count (n : Nat)
  | flag (b : Bool)
deriving DecidableEq, Repr

/-- Something that a program tells about its work. -/
structure Event where
  level : Level
  /-- The part of the program that tells it, as a path of names between double colons. -/
  target : String
  message : Option String := none
  fields : Fields Value := []
  /-- Whether it is told only the first time that it happens. -/
  once : Bool := false
deriving DecidableEq

/-- How events are written. -/
inductive Format where
  | json
  | pretty
deriving DecidableEq, Repr

namespace Format

/-- The format with a name, in capital or small letters. -/
def ofName? (name : String) : Option Format :=
  match String.ofList (name.toList.map Char.toLower) with
  | "json" => some json
  | "pretty" => some pretty
  | _ => none

end Format

namespace Value

/-- A value as people see it. -/
def text : Value → String
  | plain text => text
  | quoted text => Text.literal text
  | count n => natText n
  | flag true => "true"
  | flag false => "false"

/-- A value as data. -/
def toData : Value → Data
  | plain text | quoted text => .string text
  | count n => .ofNat n
  | flag b => .bool b

end Value

namespace Event

/-- How a character of a message is shown. Controls that could steer a terminal are not sent to
it. -/
def shownChar (c : Char) : List Char :=
  if c = '\x1b' then ['\\', 'x', '1', 'b']
  else if c = '\x07' then ['\\', 'x', '0', '7']
  else if c = '\x08' then ['\\', 'x', '0', '8']
  else if c = '\x0c' then ['\\', 'x', '0', 'c']
  else if c = '\x7f' then ['\\', 'x', '7', 'f']
  else if 0x80 ≤ c.toNat ∧ c.toNat ≤ 0x9f then
    ['\\', 'u', '\x7b'] ++ Nat.toDigits 16 c.toNat ++ ['\x7d']
  else [c]

/-- A message as people see it. -/
def shown (message : String) : String :=
  String.ofList (message.toList.flatMap shownChar)

/-- The level at the beginning of a line, with its end at the fifth column. -/
def levelColumn (level : Level) : String :=
  String.ofList (List.replicate (5 - level.name.length) ' ') ++ level.name

/-- The line for people: level, message and values. -/
def prettyLine (event : Event) : String :=
  let values := event.fields.map fun (name, value) => name ++ "=" ++ value.text
  String.intercalate " "
    (levelColumn event.level :: (event.message.toList.map shown ++ values))

/-- The members of the line for programs, told at the given time. -/
def members (now : String) (event : Event) : Fields Data :=
  [("timestamp", .string now), ("level", .string event.level.name)]
    ++ (event.message.toList.map fun message => ("message", .string message))
    ++ Fields.mapValues Value.toData event.fields
    ++ [("target", .string event.target)]

/-- The line of an event that is told at the given time. -/
def line (format : Format) (now : String) (event : Event) : String :=
  match format with
  | .json => Json.compact (.object (event.members now))
  | .pretty => event.prettyLine

end Event

end MenuPlan.Log

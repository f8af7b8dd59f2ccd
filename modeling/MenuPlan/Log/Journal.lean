/-
# The journal of a process

What a process writes to its error stream: lines of its own, and those events that its logger tells.
A process sets up its logger once; a second attempt is refused and changes nothing. Until then
events are not told, but they happen, so an event that is told only once may have had its time
already.
-/

import MenuPlan.Log.Filter

namespace MenuPlan.Log

/-- How a log is set up. -/
structure Settings where
  /-- The name that the program gives itself when it starts. -/
  serviceName : String := "navigation"
  /-- The text of the filter. -/
  level : String := "warn"
  format : Format := .pretty
deriving DecidableEq, Repr

/-- Which events are told, and how. -/
structure Logger where
  filter : Filter
  format : Format
deriving DecidableEq, Repr

namespace Logger

/-- The logger for settings, and what there is to say of its filter. A filter from the environment
that is understood takes the place of the one in the settings. -/
def ofSettings (settings : Settings) (environmentFilter : Option String) : Logger × List String :=
  match environmentFilter.bind Filter.ofText? with
  | some filter => (⟨filter, settings.format⟩, [])
  | none =>
      let (filter, complaints) := Filter.ofTextLeniently settings.level
      (⟨filter, settings.format⟩, complaints)

end Logger

/-- Why a log could not be set up. -/
structure SetupError where
  reason : String
deriving DecidableEq, Repr

namespace SetupError

/-- The text of the error. -/
def message (error : SetupError) : String :=
  "failed to initialize logging: " ++ error.reason

/-- There is a logger already. -/
def alreadySet : SetupError :=
  ⟨"a global default trace dispatcher has already been set"⟩

end SetupError

/-- Something for the error stream. -/
inductive Notice where
  | line (text : String)
  | event (event : Event)
deriving DecidableEq

/-- What a process remembers of its log. -/
structure Journal where
  logger : Option Logger := none
  /-- The events that will not be told again. -/
  past : List Event := []
deriving DecidableEq

namespace Journal

/-- Sets up the logger. There may be something to say of its filter even when this is refused. -/
def setUp (journal : Journal) (settings : Settings) (environmentFilter : Option String) :
    Except SetupError Journal × List String :=
  let (logger, complaints) := Logger.ofSettings settings environmentFilter
  match journal.logger with
  | none => (.ok { journal with logger := some logger }, complaints)
  | some _ => (.error .alreadySet, complaints)

/-- The lines of an event that is told. -/
def lines (journal : Journal) (now : String) (event : Event) : List String :=
  match journal.logger with
  | some logger => if logger.filter.allows event then [event.line logger.format now] else []
  | none => []

/-- Takes note of an event, with the lines that tell it. -/
def note (journal : Journal) (now : String) (event : Event) : Journal × List String :=
  if event.once then
    if event ∈ journal.past then (journal, [])
    else ({ journal with past := event :: journal.past }, journal.lines now event)
  else (journal, journal.lines now event)

/-- Takes note of notices in their order, with the lines that come of them. -/
def noteAll (journal : Journal) (now : String) : List Notice → Journal × List String
  | [] => (journal, [])
  | .line text :: rest =>
      let (journal, later) := journal.noteAll now rest
      (journal, text :: later)
  | .event event :: rest =>
      let (journal, told) := journal.note now event
      let (journal, later) := journal.noteAll now rest
      (journal, told ++ later)

end Journal

/-- The text of lines. -/
def textOfLines (lines : List String) : String :=
  String.join (lines.map (· ++ "\n"))

end MenuPlan.Log

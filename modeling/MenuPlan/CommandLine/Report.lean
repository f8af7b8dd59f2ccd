/-
# Reports

What comes of a command, apart from files: the exit code, the text for the output stream, and the
notices for the error stream.
-/

import MenuPlan.Log.Journal
import MenuPlan.Report

namespace MenuPlan.CommandLine

/-- What comes of a command. -/
structure Report where
  /-- Zero for success. -/
  code : Nat
  output : String := ""
  notices : List Log.Notice := []
deriving DecidableEq

/-- The line of a remark. -/
def warningLine (warning : Warning) : String :=
  match warning.location with
  | some location => s!"  {warning.code} [{location}]: {warning.message} (warning)"
  | none => s!"  {warning.code}: {warning.message} (warning)"

end MenuPlan.CommandLine

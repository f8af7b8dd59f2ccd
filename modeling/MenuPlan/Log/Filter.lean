/-
# Filters of a log

A filter says which events are told. It is a list of directives, each of which sets how much is told
by the targets that begin with a given path, or by all targets. Of several directives that cover a
target the one with the longest path counts, and of two with the same path the later one; a target
that none covers tells nothing.

In a text, directives are separated by commas. `level` covers all targets, `target=level` those that
begin with a path, and `target` alone lets them tell everything. `Filter.ofText?` refuses a text
with a directive that it does not understand, `Filter.ofTextLeniently` passes over it with a
complaint. A text without any directive tells errors only.
-/

import MenuPlan.Log.Event
import MenuPlan.Text.Split

namespace MenuPlan.Log

/-- How much is told. -/
inductive Verbosity where
  | off
  /-- Events of this level and of those that are more important. -/
  | upTo (level : Level)
deriving DecidableEq, Repr

namespace Verbosity

/-- Whether events of a level are told. -/
def allows : Verbosity → Level → Bool
  | off, _ => false
  | upTo least, level => level.rank ≤ least.rank

/-- The names of all verbosities, in small letters. -/
def names : Fields Verbosity := [
  ("off", off), ("error", upTo .error), ("warn", upTo .warn), ("info", upTo .info),
  ("debug", upTo .debug), ("trace", upTo .trace)]

/-- The number that decimal digits write, behind a plus sign or none. -/
def number? (text : List Char) : Option Nat :=
  let digits := if text.head? = some '+' then text.tail else text
  if digits.isEmpty ∨ ¬ digits.all Char.isDigit then none
  else some (digits.foldl (fun n c => n * 10 + (c.toNat - '0'.toNat)) 0)

/-- The verbosity with a name, in capital or small letters, or with a number: how many levels are
told. -/
def ofText? (text : List Char) : Option Verbosity :=
  match number? text with
  | some n => names[n]?.map Prod.snd
  | none => Fields.get? names (String.ofList (text.map Char.toLower))

end Verbosity

/-- A part of a filter. -/
structure Directive where
  /-- What the targets that it covers begin with; none for all targets. -/
  target : Option String
  verbosity : Verbosity
deriving DecidableEq, Repr

/-- Why a text is no directive. -/
inductive DirectiveError where
  | malformed
  /-- What follows the equals sign is no level. -/
  | unknownLevel
deriving DecidableEq, Repr

namespace DirectiveError

/-- The text of the error. -/
def message : DirectiveError → String
  | malformed => "invalid filter directive"
  | unknownLevel =>
      "error parsing level filter: expected one of \"off\", \"error\", \"warn\", \"info\", "
        ++ "\"debug\", \"trace\", or a number 0-5"

end DirectiveError

namespace Directive

/-- The characters that a directive may begin with. -/
def canBegin (c : Char) : Bool :=
  c.isAlphanum || c == '-' || c == ':' || c == '_' || 0x80 ≤ c.toNat

/-- The directive that a text writes. Blanks in front of it are only accepted where there is no
level behind an equals sign. -/
def ofText (text : List Char) : Except DirectiveError Directive :=
  match text.dropWhile Char.isWhitespace with
  | [] => .error .malformed
  | first :: _ =>
      if ¬ canBegin first then .error .malformed
      else
        match text.span (· ≠ '=') with
        | (word, []) =>
            match Verbosity.ofText? word with
            | some verbosity => .ok ⟨none, verbosity⟩
            | none => .ok ⟨some (String.ofList word), .upTo .trace⟩
        | (target, _ :: level) =>
            if text.head?.any Char.isWhitespace then .error .unknownLevel
            else if level.isEmpty then .ok ⟨some (String.ofList target), .upTo .trace⟩
            else match Verbosity.ofText? level with
              | some verbosity => .ok ⟨some (String.ofList target), verbosity⟩
              | none => .error .unknownLevel

/-- Whether a directive is about a target. -/
def covers (directive : Directive) (target : String) : Bool :=
  directive.target.all fun path => path.toList.isPrefixOf target.toList

/-- How specific a directive is. -/
def precision (directive : Directive) : Nat :=
  directive.target.elim 0 fun path => path.length + 1

end Directive

/-- Which events are told. -/
structure Filter where
  directives : List Directive
deriving DecidableEq, Repr

namespace Filter

/-- The filter with these directives; errors only when there are none. -/
def ofDirectives (directives : List Directive) : Filter :=
  ⟨if directives.isEmpty then [⟨none, .upTo .error⟩] else directives⟩

/-- The parts of a text between commas that are not empty. -/
def parts (text : String) : List (List Char) :=
  (Text.split ',' text.toList).filter (· ≠ [])

/-- The filter that a text writes, if all its directives are understood. -/
def ofText? (text : String) : Option Filter := do
  let directives ← (parts text).mapM fun part => (Directive.ofText part).toOption
  return ofDirectives directives

/-- What is said of a directive that is passed over. -/
def complaint (part : List Char) (error : DirectiveError) : String :=
  let directive := String.ofList part
  let reason := error.message
  s!"ignoring `{directive}`: {reason}"

/-- The filter that a text writes, with what there is to say of the directives passed over. -/
def ofTextLeniently (text : String) : Filter × List String :=
  let read := (parts text).map fun part => (part, Directive.ofText part)
  let directives := read.filterMap fun (_, directive) => directive.toOption
  let complaints := read.filterMap fun (part, directive) =>
    match directive with
    | .ok _ => none
    | .error error => some (complaint part error)
  (ofDirectives directives, complaints)

/-- How much a target may tell. -/
def verbosity (filter : Filter) (target : String) : Verbosity :=
  let covering := filter.directives.filter fun directive => directive.covers target
  let best := covering.foldl
    (fun best directive => if best.precision ≤ directive.precision then directive else best)
    ⟨none, .off⟩
  best.verbosity

/-- Whether an event is told. -/
def allows (filter : Filter) (event : Event) : Bool :=
  (filter.verbosity event.target).allows event.level

end Filter

end MenuPlan.Log

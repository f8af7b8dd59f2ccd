/-
# Plain and quoted scalars

The scalars whose lines are folded: plain ones, and those in single or double quotes. Between two
words of such a scalar lies a `Gap`. A gap on one line is kept as it is; a gap with line breaks
loses its blanks and its first line feed, or becomes a single space when that was its only break.

Every function goes once over the glyphs and returns what it has not read.
-/

import MenuPlan.Json.Quoted
import MenuPlan.Yaml.Glyph

namespace MenuPlan.Yaml

/-- The blanks and breaks between two words, last character first. -/
structure Gap where
  /-- Blanks before the first break. -/
  blanks : List Char := []
  breaks : List Char := []
  /-- Whether the gap begins with a line break that was escaped. -/
  escaped : Bool := false

namespace Gap

/-- Whether the gap spans more than one line. -/
def isBroken (gap : Gap) : Bool :=
  gap.escaped || !gap.breaks.isEmpty

/-- Whether there is no gap. -/
def isEmpty (gap : Gap) : Bool :=
  gap.blanks.isEmpty && !gap.isBroken

/-- Adds a blank; those after a break do not count. -/
def addBlank (gap : Gap) (c : Char) : Gap :=
  if gap.isBroken then gap else { gap with blanks := c :: gap.blanks }

/-- Adds a line break. -/
def addBreak (gap : Gap) (c : Char) : Gap :=
  { gap with breaks := c :: gap.breaks }

/-- What the gap contributes to the scalar. -/
def folded (gap : Gap) : List Char :=
  if !gap.isBroken then gap.blanks.reverse
  else if gap.escaped then gap.breaks.reverse
  else match gap.breaks.reverse with
    | ['\n'] => [' ']
    | '\n' :: more => more
    | all => all

/-- The text so far, last character first, with the gap after it. -/
def after (gap : Gap) (text : List Char) : List Char :=
  gap.folded.reverse ++ text

end Gap

/-- A plain scalar: its text, whether a line break was read behind it, and the rest. -/
structure PlainScalar where
  text : String
  broken : Bool
  rest : List Glyph

/-- Reads a plain scalar. `leastColumn` is the column below which a continuation line of a block
scalar ends it; in flow collections their punctuation ends it instead. -/
def plainScalar? (inFlow : Bool) (leastColumn : Nat) (text : List Char) (gap : Gap) :
    List Glyph → Option PlainScalar
  | [] => some ⟨String.ofList text.reverse, gap.isBroken, []⟩
  | g :: rest =>
      if g.isBlank then
        if gap.isBroken && g.char == '\t' && g.column < leastColumn then none
        else plainScalar? inFlow leastColumn text (gap.addBlank g.char) rest
      else if g.isBreak then plainScalar? inFlow leastColumn text (gap.addBreak g.char) rest
      else if !gap.isEmpty && ((!inFlow && g.column < leastColumn)
          || g.char == '#' || atDocumentMark (g :: rest)) then
        some ⟨String.ofList text.reverse, gap.isBroken, g :: rest⟩
      else if inFlow && g.char == ':' && atOneOf [',', '?', '[', ']', '{', '}'] rest then none
      else if (g.char == ':' && atGap rest)
          || (inFlow && [',', '[', ']', '{', '}'].contains g.char) then
        some ⟨String.ofList text.reverse, gap.isBroken, g :: rest⟩
      else plainScalar? inFlow leastColumn (g.char :: gap.after text) {} rest

/-- Reads a single-quoted scalar behind its opening quote. A quote in it is written twice. -/
def singleQuoted? (text : List Char) (gap : Gap) : List Glyph → Option (String × List Glyph)
  | [] => none
  | g :: rest =>
      if atDocumentMark (g :: rest) then none
      else if g.isBlank then singleQuoted? text (gap.addBlank g.char) rest
      else if g.isBreak then singleQuoted? text (gap.addBreak g.char) rest
      else if g.char = '\'' then
        match rest with
        | next :: rest' =>
            if next.char = '\'' then singleQuoted? ('\'' :: gap.after text) {} rest'
            else some (String.ofList (gap.after text).reverse, rest)
        | [] => some (String.ofList (gap.after text).reverse, [])
      else singleQuoted? (g.char :: gap.after text) {} rest

/-- The character that a one-letter escape stands for. -/
def namedEscape? : Char → Option Char
  | '0' => some '\x00'
  | 'a' => some '\x07'
  | 'b' => some '\x08'
  | 't' | '\t' => some '\t'
  | 'n' => some '\n'
  | 'v' => some '\x0b'
  | 'f' => some '\x0c'
  | 'r' => some '\r'
  | 'e' => some '\x1b'
  | ' ' => some ' '
  | '"' => some '"'
  | '/' => some '/'
  | '\\' => some '\\'
  | 'N' => some '\x85'
  | '_' => some '\xa0'
  | 'L' => some '\u2028'
  | 'P' => some '\u2029'
  | _ => none

/-- How many hexadecimal digits follow an escape letter. -/
def escapeLength? : Char → Option Nat
  | 'x' => some 2
  | 'u' => some 4
  | 'U' => some 8
  | _ => none

mutual

/-- Reads a double-quoted scalar behind its opening quote. -/
def doubleQuoted? (text : List Char) (gap : Gap) : List Glyph → Option (String × List Glyph)
  | [] => none
  | g :: rest =>
      if atDocumentMark (g :: rest) then none
      else if g.isBlank then doubleQuoted? text (gap.addBlank g.char) rest
      else if g.isBreak then doubleQuoted? text (gap.addBreak g.char) rest
      else if g.char = '"' then some (String.ofList (gap.after text).reverse, rest)
      else if g.char = '\\' then
        match rest with
        | [] => none
        | e :: rest' =>
            if e.isBreak then doubleQuoted? (gap.after text) { escaped := true } rest'
            else match namedEscape? e.char, escapeLength? e.char with
              | some c, _ => doubleQuoted? (c :: gap.after text) {} rest'
              | none, some digits => hexEscape? (gap.after text) digits 0 rest'
              | none, none => none
      else doubleQuoted? (g.char :: gap.after text) {} rest

/-- Reads the digits of a hexadecimal escape and what follows them. The number must be that of a
character. -/
def hexEscape? (text : List Char) (digits value : Nat) :
    List Glyph → Option (String × List Glyph)
  | [] => none
  | g :: rest =>
      match Json.hexValue? g.char with
      | none => none
      | some digit =>
          let value := value * 16 + digit
          if 1 < digits then hexEscape? text (digits - 1) value rest
          else if value.isValidChar then doubleQuoted? (Char.ofNat value :: text) {} rest
          else none

end

end MenuPlan.Yaml

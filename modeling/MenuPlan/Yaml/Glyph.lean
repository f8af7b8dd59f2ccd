/-
# Characters with their places

YAML is read by line and column, so a text is first turned into a list of characters that know where
they stand. Line breaks are unified on the way: a carriage return, a carriage return with a line
feed, and the next-line character become a line feed, while the two Unicode separators stay what
they are. After this step no rule needs to look at how a line was ended.

Control characters other than tab and line breaks, and the noncharacters `U+FFFE` and `U+FFFF`,
cannot stand in a text at all.
-/

namespace MenuPlan.Yaml

/-- A character with its line and its column, both counted from zero. -/
structure Glyph where
  char : Char
  line : Nat
  column : Nat
deriving DecidableEq, Repr

/-- The characters that may stand in a text. -/
def isPrintable (c : Char) : Bool :=
  let n := c.toNat
  n = 0x09 || n = 0x0A || n = 0x0D || n = 0x85
    || (0x20 ≤ n && n ≤ 0x7E)
    || (0xA0 ≤ n && n ≤ 0xFFFD)
    || 0x10000 ≤ n

/-- The characters that end a line. -/
def isLineEnd (c : Char) : Bool :=
  c == '\n' || c == '\r' || c == '\x85' || c == '\u2028' || c == '\u2029'

/-- The character that stands for a line end. -/
def unifyLineEnd (c : Char) : Char :=
  if c == '\r' || c == '\x85' then '\n' else c

/-- The characters with their places, from the given place on. -/
def place (line column : Nat) : List Char → List Glyph
  | [] => []
  | '\r' :: '\n' :: rest => ⟨'\n', line, column⟩ :: place (line + 1) 0 rest
  | c :: rest =>
      if isLineEnd c then ⟨unifyLineEnd c, line, column⟩ :: place (line + 1) 0 rest
      else ⟨c, line, column⟩ :: place line (column + 1) rest

/-- The glyphs of a text, if all its characters may stand there. A leading byte order mark takes a
column and is dropped. -/
def glyphs? (text : String) : Option (List Glyph) :=
  let characters := text.toList
  if characters.all isPrintable then
    match place 0 0 characters with
    | ⟨'\uFEFF', _, _⟩ :: rest => some rest
    | all => some all
  else none

namespace Glyph

/-- A space or a tab. -/
def isBlank (g : Glyph) : Bool :=
  g.char == ' ' || g.char == '\t'

/-- A line break. -/
def isBreak (g : Glyph) : Bool :=
  g.char == '\n' || g.char == '\u2028' || g.char == '\u2029'

end Glyph

/-- Whether a blank, a line break or the end of the text comes next. -/
def atGap : List Glyph → Bool
  | [] => true
  | g :: _ => g.isBlank || g.isBreak

/-- Whether one of these characters comes next. -/
def atOneOf (characters : List Char) : List Glyph → Bool
  | [] => false
  | g :: _ => characters.contains g.char

/-- Whether the line begins with this mark, followed by a gap. -/
def atLineMark (mark : Char) : List Glyph → Bool
  | a :: b :: c :: rest =>
      a.column == 0 && a.char == mark && b.char == mark && c.char == mark && atGap rest
  | _ => false

/-- Whether a line that starts or ends a document begins here. -/
def atDocumentMark (text : List Glyph) : Bool :=
  atLineMark '-' text || atLineMark '.' text

/-- Drops spaces and tabs. -/
def dropBlanks (text : List Glyph) : List Glyph :=
  text.dropWhile Glyph.isBlank

/-- Drops a comment, up to the line break. -/
def dropComment : List Glyph → List Glyph
  | g :: rest => if g.char = '#' then rest.dropWhile fun g => !g.isBreak else g :: rest
  | [] => []

/-- What follows the rest of a line that holds at most blanks and a comment. -/
def endOfLine? (text : List Glyph) : Option (List Glyph) :=
  match dropComment (dropBlanks text) with
  | [] => some []
  | g :: rest => if g.isBreak then some rest else none

/-- The characters of a run of glyphs. -/
def characters (text : List Glyph) : List Char :=
  text.map Glyph.char

end MenuPlan.Yaml

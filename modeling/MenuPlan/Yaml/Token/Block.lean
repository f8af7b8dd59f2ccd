/-
# Block scalars

The scalars behind `|` and `>`. The header says which line breaks at the end are kept and may say
how far the text is indented; without that, the first line that is not empty says it. In a folded
scalar a single line break between two lines of text becomes a space, unless one of them begins with
a blank.
-/

import MenuPlan.Yaml.Glyph

namespace MenuPlan.Yaml

/-- What becomes of the line breaks at the end of a block scalar. -/
inductive Chomping where
  | strip
  | clip
  | keep
deriving DecidableEq

/-- The header of a block scalar. -/
structure BlockHeader where
  chomping : Chomping
  /-- The indentation relative to the surrounding block, if the header gives it. -/
  increment : Option Nat

/-- The chomping that a character stands for. -/
def Chomping.ofChar? : Char → Option Chomping
  | '+' => some keep
  | '-' => some strip
  | _ => none

/-- An indentation digit; zero is none. -/
def increment? (c : Char) : Option Nat :=
  if '1' ≤ c ∧ c ≤ '9' then some (c.toNat - '0'.toNat) else none

/-- Reads the header of a block scalar with the rest of its line: a chomping mark and a digit, in
either order and both optional. -/
def blockHeader? (text : List Glyph) : Option (BlockHeader × List Glyph) := do
  let (header, rest) := match text with
    | [] => (BlockHeader.mk .clip none, [])
    | a :: rest =>
        match Chomping.ofChar? a.char, increment? a.char with
        | some chomping, _ =>
            match rest with
            | b :: rest' =>
                match increment? b.char with
                | some n => (BlockHeader.mk chomping (some n), rest')
                | none => (BlockHeader.mk chomping none, rest)
            | [] => (BlockHeader.mk chomping none, [])
        | none, some n =>
            match rest with
            | b :: rest' =>
                match Chomping.ofChar? b.char with
                | some chomping => (BlockHeader.mk chomping (some n), rest')
                | none => (BlockHeader.mk .clip (some n), rest)
            | [] => (BlockHeader.mk .clip (some n), [])
        | none, none => (BlockHeader.mk .clip none, a :: rest)
  return (header, ← endOfLine? rest)

/-- What has been read of a block scalar, all texts last character first. -/
structure BlockText where
  text : List Char := []
  /-- The break that ended the last line of text. -/
  leading : List Char := []
  /-- The breaks of the empty lines after it. -/
  trailing : List Char := []
  /-- Whether the last line of text began with a blank. -/
  blankStart : Bool := false

namespace BlockText

/-- Begins a line of text. -/
def beginLine (b : BlockText) (literal startsBlank : Bool) : BlockText :=
  let joined := !literal && b.leading == ['\n'] && !b.blankStart && !startsBlank
  let separator :=
    if !joined then b.trailing ++ b.leading
    else if b.trailing.isEmpty then [' ']
    else b.trailing
  { text := separator ++ b.text, blankStart := startsBlank }

/-- Adds a character to the line. -/
def add (b : BlockText) (c : Char) : BlockText :=
  { b with text := c :: b.text }

/-- The scalar. -/
def finish (b : BlockText) (chomping : Chomping) : String :=
  let ending := match chomping with
    | .strip => []
    | .clip => b.leading
    | .keep => b.trailing ++ b.leading
  String.ofList (ending ++ b.text).reverse

end BlockText

mutual

/-- Reads the start of a line. `indent` is the indentation of the text once it is known; before that
`widest` is the greatest indentation met so far, and `least` the smallest one allowed. -/
def blockLine? (literal : Bool) (chomping : Chomping) (least : Nat) (indent : Option Nat)
    (widest : Nat) (b : BlockText) : List Glyph → Option (String × List Glyph)
  | [] => some (b.finish chomping, [])
  | g :: rest =>
      let before := indent.all (g.column < ·)
      if before && g.char == ' ' then
        blockLine? literal chomping least indent widest b rest
      else if before && g.char == '\t' then none
      else if g.isBreak then
        blockLine? literal chomping least indent (max widest g.column)
          { b with trailing := g.char :: b.trailing } rest
      else
        let known := indent.getD (max (max widest g.column) least)
        if g.column = known then
          blockText? literal chomping least known ((b.beginLine literal g.isBlank).add g.char) rest
        else some (b.finish chomping, g :: rest)

/-- Reads the rest of a line of text. -/
def blockText? (literal : Bool) (chomping : Chomping) (least indent : Nat) (b : BlockText) :
    List Glyph → Option (String × List Glyph)
  | [] => some (b.finish chomping, [])
  | g :: rest =>
      if g.isBreak then
        blockLine? literal chomping least (some indent) 0 { b with leading := [g.char] } rest
      else blockText? literal chomping least indent (b.add g.char) rest

end

/-- Reads a block scalar behind its mark. `outer` is the column of the surrounding block, if there
is one. -/
def blockScalar? (literal : Bool) (outer : Option Nat) (text : List Glyph) :
    Option (String × List Glyph) := do
  let (header, rest) ← blockHeader? text
  let least := max 1 (outer.elim 0 (· + 1))
  let indent := header.increment.map (outer.getD 0 + ·)
  blockLine? literal header.chomping least indent 0 {} rest

end MenuPlan.Yaml

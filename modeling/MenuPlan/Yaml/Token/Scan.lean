/-
# Cutting a text into tokens

One step of the scanner reads one token; it also opens and closes block collections, by comparing
the column of the token with those of the open ones. A mapping key without a question mark is known
only when its colon is met, so the scanner remembers where the last possible key began (a
`Candidate`) and inserts the key token there afterwards. A candidate must lie on one line and within
1024 characters before its colon. In a block, a candidate at the very column of the open collection
is the only way to go on, so dropping it is an error.

Each step reads at least one character; the number of characters bounds the number of steps.
-/

import MenuPlan.Yaml.Token
import MenuPlan.Yaml.Token.Block
import MenuPlan.Yaml.Token.Flow
import MenuPlan.Yaml.Token.Name

namespace MenuPlan.Yaml

/-- The place where a mapping key may have begun. -/
structure Candidate where
  line : Nat
  column : Nat
  /-- How many tokens came before it. -/
  position : Nat
  /-- Whether a key is the only thing that can stand there. -/
  required : Bool

/-- The state of the scanner. -/
structure Scanner where
  rest : List Glyph
  /-- The tokens so far, last first. -/
  tokens : List Token := []
  count : Nat := 0
  /-- The columns of the open block collections, innermost first. -/
  indents : List Nat := []
  /-- The candidate of the innermost flow collection, or of the block outside all of them. -/
  candidate : Option Candidate := none
  /-- The candidates of the surrounding levels, one for each open flow collection. -/
  outer : List (Option Candidate) := []
  /-- Whether a key may begin here. -/
  keyAllowed : Bool := true

namespace Scanner

/-- Whether a flow collection is open. -/
def inFlow (s : Scanner) : Bool :=
  !s.outer.isEmpty

/-- Appends a token. -/
def push (s : Scanner) (token : Token) : Scanner :=
  { s with tokens := token :: s.tokens, count := s.count + 1 }

/-- Inserts tokens, last first, behind the first `position` ones. -/
def insertAt (s : Scanner) (position : Nat) (inserted : List Token) : Scanner :=
  let after := s.count - position
  { s with
    tokens := s.tokens.take after ++ inserted ++ s.tokens.drop after
    count := s.count + inserted.length }

/-- Skips blanks, comments and line breaks. A line break outside flow collections allows a key; a
tab may not stand where a key is allowed. The result tells whether a key is allowed. -/
def skipGap (inFlow : Bool) : (keyAllowed inComment : Bool) → List Glyph → Bool × List Glyph
  | keyAllowed, _, [] => (keyAllowed, [])
  | keyAllowed, inComment, g :: rest =>
      if g.isBreak then skipGap inFlow (keyAllowed || !inFlow) false rest
      else if inComment || g.char == '#' then skipGap inFlow keyAllowed true rest
      else if g.char == ' ' || (g.char == '\t' && (inFlow || !keyAllowed)) then
        skipGap inFlow keyAllowed false rest
      else (keyAllowed, g :: rest)

/-- Whether a candidate can no longer become a key at this place. -/
def isStale (g : Glyph) (candidate : Candidate) : Bool :=
  candidate.line < g.line || candidate.column + 1024 < g.column

/-- Forgets a candidate, unless a key was required. -/
def forget? : Option Candidate → Option (Option Candidate)
  | some candidate => if candidate.required then none else some none
  | none => some none

/-- Forgets the candidates that are stale at this place, at all levels. -/
def forgetStale? (s : Scanner) (g : Glyph) : Option Scanner := do
  let check (candidate : Option Candidate) : Option (Option Candidate) :=
    if candidate.any (isStale g) then forget? candidate else some candidate
  return { s with candidate := ← check s.candidate, outer := ← s.outer.mapM check }

/-- Remembers this place as a possible beginning of a key, if one may begin here. -/
def remember? (s : Scanner) (g : Glyph) : Option Scanner := do
  if s.keyAllowed then
    let _ ← forget? s.candidate
    let required := !s.inFlow && s.indents.head? == some g.column
    return { s with candidate := some ⟨g.line, g.column, s.count, required⟩ }
  else
    return s

/-- Forgets the candidate of the innermost level, unless a key was required. -/
def forgetCandidate? (s : Scanner) : Option Scanner := do
  return { s with candidate := ← forget? s.candidate }

/-- Closes the block collections that lie further right than a column. -/
def closeBlocks (column : Nat) : List Nat → Scanner → Scanner
  | [], s => { s with indents := [] }
  | indent :: outer, s =>
      if column < indent then closeBlocks column outer (s.push .blockEnd)
      else { s with indents := indent :: outer }

/-- Closes block collections by the column of the next token; flow collections ignore columns. -/
def closeBlocksTo (s : Scanner) (column : Nat) : Scanner :=
  if s.inFlow then s else closeBlocks column s.indents s

/-- Closes all block collections, unless a flow collection is open. -/
def closeAllBlocks (s : Scanner) : Scanner :=
  if s.inFlow then s
  else s.indents.foldl (fun s _ => s.push .blockEnd) { s with indents := [] }

/-- Whether a column opens a new block collection. -/
def opensBlock (s : Scanner) (column : Nat) : Bool :=
  !s.inFlow && s.indents.head?.all (· < column)

/-- Opens a block collection at a column that lies right of the open ones. -/
def openBlock (s : Scanner) (column : Nat) (token : Token) : Scanner :=
  if s.opensBlock column then { s.push token with indents := column :: s.indents } else s

/-- Reads a token that cannot begin a key. -/
def plainToken? (s : Scanner) (token : Token) (rest : List Glyph) (keyAllowed : Bool) :
    Option Scanner := do
  let s ← s.forgetCandidate?
  return { s.push token with rest, keyAllowed }

/-- Reads a directive or a document mark, which close all blocks. -/
def documentToken? (s : Scanner) (token : Token) (rest : List Glyph) : Option Scanner :=
  s.closeAllBlocks.plainToken? token rest false

/-- Reads a token that may be the beginning of a key. -/
def keyToken? (s : Scanner) (g : Glyph) (token : Token) (rest : List Glyph) : Option Scanner := do
  let s ← s.remember? g
  return { s.push token with rest, keyAllowed := false }

/-- Opens a flow collection, which may itself be the beginning of a key. -/
def openFlow? (s : Scanner) (g : Glyph) (token : Token) (rest : List Glyph) : Option Scanner := do
  let s ← s.remember? g
  return { s.push token with
    rest, keyAllowed := true, candidate := none, outer := s.candidate :: s.outer }

/-- Closes a flow collection. -/
def closeFlow? (s : Scanner) (token : Token) (rest : List Glyph) : Option Scanner := do
  let s ← s.forgetCandidate?
  let s := match s.outer with
    | [] => s
    | candidate :: outer => { s with candidate, outer }
  return { s.push token with rest, keyAllowed := false }

/-- Reads an indicator that may open a block collection: an entry or an explicit key. -/
def blockIndicator? (s : Scanner) (g : Glyph) (collection token : Token) (rest : List Glyph)
    (keyAllowed : Bool) : Option Scanner :=
  if s.inFlow then s.plainToken? token rest keyAllowed
  else if s.keyAllowed then (s.openBlock g.column collection).plainToken? token rest keyAllowed
  else none

/-- Reads the indicator of a mapping value. With a candidate, the key token is inserted where it
began, and a block mapping is opened there if need be. -/
def value? (s : Scanner) (g : Glyph) (rest : List Glyph) : Option Scanner :=
  match s.candidate with
  | some candidate =>
      let s := { s with candidate := none }
      let s :=
        if s.opensBlock candidate.column then
          { s.insertAt candidate.position [.key, .blockMappingStart] with
            indents := candidate.column :: s.indents }
        else s.insertAt candidate.position [.key]
      some { s.push .value with rest, keyAllowed := false }
  | none =>
      if s.inFlow then some { s.push .value with rest, keyAllowed := false }
      else if s.keyAllowed then
        some { (s.openBlock g.column .blockMappingStart).push .value with rest, keyAllowed := true }
      else none

/-- Reads a plain scalar. If a line break was read behind it, a key may follow. -/
def plain? (s : Scanner) (g : Glyph) (text : List Glyph) : Option Scanner := do
  let scalar ← plainScalar? s.inFlow (s.indents.head?.elim 0 (· + 1)) [] {} text
  let s ← s.keyToken? g (.scalar scalar.text true) scalar.rest
  return { s with keyAllowed := scalar.broken }

/-- The characters that cannot begin a plain scalar. -/
def indicators : List Char :=
  ['-', '?', ':', ',', '[', ']', '{', '}', '#', '&', '*', '!', '|', '>', '\'', '"', '%', '@',
    '\x60']

/-- Whether a plain scalar begins with this glyph. A blank begins none; three of the indicators
begin one when no blank follows. -/
def beginsPlain (s : Scanner) (g : Glyph) (rest : List Glyph) : Bool :=
  (!g.isBlank && !indicators.contains g.char)
    || (g.char == '-' && !rest.head?.any Glyph.isBlank)
    || (!s.inFlow && (g.char == '?' || g.char == ':') && !atGap rest)

/-- Reads the token that begins with `g`. -/
def token? (s : Scanner) (g : Glyph) (rest : List Glyph) : Option Scanner :=
  if g.column == 0 && g.char == '%' then do
    let (token, rest) ← directive? rest
    s.documentToken? token rest
  else if atLineMark '-' (g :: rest) then s.documentToken? .documentStart (rest.drop 2)
  else if atLineMark '.' (g :: rest) then s.documentToken? .documentEnd (rest.drop 2)
  else match g.char with
    | '[' => s.openFlow? g .flowSequenceStart rest
    | '{' => s.openFlow? g .flowMappingStart rest
    | ']' => s.closeFlow? .flowSequenceEnd rest
    | '}' => s.closeFlow? .flowMappingEnd rest
    | ',' => s.plainToken? .flowEntry rest true
    | '*' => do
        let (name, rest) ← anchorName? rest
        s.keyToken? g (.aliasOf name) rest
    | '&' => do
        let (name, rest) ← anchorName? rest
        s.keyToken? g (.anchor name) rest
    | '!' => do
        let (token, rest) ← tag? s.inFlow (g :: rest)
        s.keyToken? g token rest
    | '\'' => do
        let (text, rest) ← singleQuoted? [] {} rest
        s.keyToken? g (.scalar text false) rest
    | '"' => do
        let (text, rest) ← doubleQuoted? [] {} rest
        s.keyToken? g (.scalar text false) rest
    | c =>
        if c == '-' && atGap rest then
          s.blockIndicator? g .blockSequenceStart .blockEntry rest true
        else if c == '?' && (s.inFlow || atGap rest) then
          s.blockIndicator? g .blockMappingStart .key rest (!s.inFlow)
        else if c == ':' && (s.inFlow || atGap rest) then s.value? g rest
        else if (c == '|' || c == '>') && !s.inFlow then do
          let (text, rest) ← blockScalar? (c == '|') s.indents.head? rest
          s.plainToken? (.scalar text false) rest true
        else if s.beginsPlain g rest then s.plain? g (g :: rest)
        else none

/-- Ends the text. No required key may be missing. -/
def finish? (s : Scanner) : Option (List Token) := do
  let _ ← s.outer.mapM forget?
  let s ← s.closeAllBlocks.forgetCandidate?
  return (s.push .streamEnd).tokens.reverse

/-- Reads the tokens from here to the end, in at most the given number of steps. -/
def run? : Nat → Scanner → Option (List Token)
  | 0, _ => none
  | steps + 1, s =>
      match skipGap s.inFlow s.keyAllowed false s.rest with
      | (_, []) => s.finish?
      | (keyAllowed, g :: rest) => do
          let s ← { s with keyAllowed }.forgetStale? g
          run? steps (← (s.closeBlocksTo g.column).token? g rest)

end Scanner

/-- The tokens of a text. -/
def Token.ofText? (text : String) : Option (List Token) := do
  let glyphs ← glyphs? text
  Scanner.run? (glyphs.length + 1) { rest := glyphs }

end MenuPlan.Yaml

/-
# Anchors, tags and directives

The tokens that are made of names: anchors and aliases, tags with their handles, and the directives
before a document. Tags are sequences of bytes, because percent escapes write bytes.
-/

import MenuPlan.Json.Quoted
import MenuPlan.Yaml.Glyph
import MenuPlan.Yaml.Token

namespace MenuPlan.Yaml

/-- The characters of names: ASCII letters and digits, `_` and `-`. -/
def isNameChar (c : Char) : Bool :=
  c.isAlphanum || c == '_' || c == '-'

/-- Splits off a name. -/
def spanName (text : List Glyph) : List Char × List Glyph :=
  let isName (g : Glyph) := isNameChar g.char
  (characters (text.takeWhile isName), text.dropWhile isName)

/-- Reads the name of an anchor or alias. It ends at a gap or at one of a few indicators. -/
def anchorName? (text : List Glyph) : Option (String × List Glyph) :=
  let (name, rest) := spanName text
  if name.isEmpty then none
  else if atGap rest || atOneOf ['?', ':', ',', ']', '}', '%', '@', '\x60'] rest then
    some (String.ofList name, rest)
  else none

/-- The characters that may stand in a tag besides those of names. Flow punctuation is allowed only
in a tag that is written out between angle brackets and in directives. -/
def isTagChar (verbatim : Bool) (c : Char) : Bool :=
  isNameChar c
    || [';', '/', '?', ':', '@', '&', '=', '+', '$', '.', '!', '~', '*', '\'', '(', ')'].contains c
    || (verbatim && [',', '[', ']'].contains c)

/-- How many bytes a UTF-8 sequence has, by its first byte. -/
def sequenceLength? (first : Nat) : Option Nat :=
  if first < 0x80 then some 1
  else if 0xC0 ≤ first ∧ first < 0xE0 then some 2
  else if 0xE0 ≤ first ∧ first < 0xF0 then some 3
  else if 0xF0 ≤ first ∧ first < 0xF8 then some 4
  else none

/-- How many escaped bytes must still follow, after one more byte. -/
def bytesAfter? (pending byte : Nat) : Option Nat :=
  if pending = 0 then (sequenceLength? byte).map (· - 1)
  else if 0x80 ≤ byte ∧ byte < 0xC0 then some (pending - 1)
  else none

/-- Reads the bytes of a tag. A percent sign and two hexadecimal digits write a byte; `pending`
continuation bytes must still be written that way. -/
def tagBytes? (verbatim : Bool) (pending : Nat) (bytes : List UInt8) :
    List Glyph → Option (List UInt8 × List Glyph)
  | [] => if pending = 0 then some (bytes.reverse, []) else none
  | g :: rest =>
      if g.char = '%' then
        match rest with
        | a :: b :: rest' =>
            match Json.hexValue? a.char, Json.hexValue? b.char with
            | some high, some low =>
                let byte := high * 16 + low
                match bytesAfter? pending byte with
                | some pending => tagBytes? verbatim pending (byte.toUInt8 :: bytes) rest'
                | none => none
            | _, _ => none
        | _ => none
      else if 0 < pending then none
      else if isTagChar verbatim g.char then
        tagBytes? verbatim 0 (g.char.toNat.toUInt8 :: bytes) rest
      else some (bytes.reverse, g :: rest)

/-- The bytes of an ASCII text. -/
def asciiBytes (text : List Char) : List UInt8 :=
  text.map fun c => c.toNat.toUInt8

/-- Splits off a handle: an exclamation mark, a name, and another mark if there is one. -/
def handle? : List Glyph → Option (List Char × List Glyph)
  | [] => none
  | g :: rest =>
      if g.char = '!' then
        let (name, rest) := spanName rest
        match rest with
        | [] => some ('!' :: name, [])
        | close :: rest' =>
            if close.char = '!' then some ('!' :: (name ++ ['!']), rest')
            else some ('!' :: name, rest)
      else none

/-- A tag must be followed by a gap, or by a comma in a flow collection. -/
def atTagEnd (inFlow : Bool) (text : List Glyph) : Bool :=
  atGap text || (inFlow && atOneOf [','] text)

/-- Reads a tag. It is written out between angle brackets, or begins with a handle; a lone
exclamation mark is a tag of its own. -/
def tag? (inFlow : Bool) (text : List Glyph) : Option (Token × List Glyph) := do
  let (token, rest) ← match text with
    | _ :: open' :: rest =>
        if open'.char = '<' then do
          let (bytes, rest) ← tagBytes? true 0 [] rest
          if bytes.isEmpty then none
          else match rest with
            | close :: rest' => if close.char = '>' then some (Token.tag "" bytes, rest') else none
            | [] => none
        else shorthand? text
    | _ => shorthand? text
  if atTagEnd inFlow rest then some (token, rest) else none
where
  /-- Reads a tag that begins with a handle. What looks like a handle without its closing mark is
  the beginning of the suffix. -/
  shorthand? (text : List Glyph) : Option (Token × List Glyph) := do
    let (handle, rest) ← handle? text
    if 1 < handle.length ∧ handle.getLast? = some '!' then
      let (bytes, rest) ← tagBytes? false 0 [] rest
      if bytes.isEmpty then none else some (.tag (String.ofList handle) bytes, rest)
    else
      let (bytes, rest) ← tagBytes? false 0 (asciiBytes handle.tail).reverse rest
      if bytes.isEmpty then some (.tag "" (asciiBytes ['!']), rest) else some (.tag "!" bytes, rest)

/-- Reads a part of a version: one to nine digits. -/
def versionPart? (text : List Glyph) : Option (Nat × List Glyph) :=
  let isDigit (g : Glyph) := g.char.isDigit
  let digits := characters (text.takeWhile isDigit)
  if digits.isEmpty ∨ 9 < digits.length then none
  else some (digits.foldl (fun n c => n * 10 + (c.toNat - '0'.toNat)) 0, text.dropWhile isDigit)

/-- Reads a version: two parts and a point. -/
def version? (text : List Glyph) : Option (Token × List Glyph) := do
  let (major, rest) ← versionPart? text
  match rest with
  | g :: rest =>
      if g.char = '.' then do
        let (minor, rest) ← versionPart? rest
        some (.versionDirective major minor, rest)
      else none
  | [] => none

/-- Reads the declaration of a tag handle. -/
def tagDeclaration? (text : List Glyph) : Option (Token × List Glyph) := do
  let (handle, rest) ← handle? text
  if handle ≠ ['!'] ∧ (handle.length = 1 ∨ handle.getLast? ≠ some '!') then none
  else match rest with
    | g :: _ =>
        if g.isBlank then do
          let (bytes, rest) ← tagBytes? true 0 [] (dropBlanks rest)
          if bytes.isEmpty ∨ ¬ atGap rest then none
          else some (.tagDirective (String.ofList handle) bytes, rest)
        else none
    | [] => none

/-- Reads a directive behind its percent sign, with its whole line. -/
def directive? (text : List Glyph) : Option (Token × List Glyph) := do
  let (name, rest) := spanName text
  if ¬ atGap rest then none
  else
    let (token, rest) ←
      if name = ['Y', 'A', 'M', 'L'] then version? (dropBlanks rest)
      else if name = ['T', 'A', 'G'] then tagDeclaration? (dropBlanks rest)
      else none
    return (token, ← endOfLine? rest)

end MenuPlan.Yaml

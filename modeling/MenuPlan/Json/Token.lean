/-
# Tokens of JSON text

The text is cut into brackets, commas, colons, strings and words; a word is any other run of
characters that are neither blank nor punctuation, so it is a number, a literal name, or a mistake
that the reader finds. Only strings can be malformed at this stage: a raw control character, an
unknown escape, half of a surrogate pair, or a missing closing quote.
-/

import MenuPlan.Json.Quoted

namespace MenuPlan.Json

/-- A token of JSON text. -/
inductive Token where
  | openArray
  | closeArray
  | openObject
  | closeObject
  | comma
  | colon
  | string (text : String)
  | word (text : List Char)
deriving DecidableEq

namespace Token

/-- The blanks that may stand between tokens. -/
def isBlank (c : Char) : Bool :=
  c == ' ' || c == '\n' || c == '\t' || c == '\r'

/-- The tokens of one character. -/
def ofPunctuation? : Char → Option Token
  | '[' => some openArray
  | ']' => some closeArray
  | '{' => some openObject
  | '}' => some closeObject
  | ',' => some comma
  | ':' => some colon
  | _ => none

/-- The word that has been collected, last character first, if there is any. -/
def ofWord : List Char → List Token
  | [] => []
  | collected => [word collected.reverse]

/-- The character of a short escape. -/
def unescape? : Char → Option Char
  | '"' => some '"'
  | '\\' => some '\\'
  | '/' => some '/'
  | 'b' => some '\x08'
  | 'f' => some '\x0c'
  | 'n' => some '\n'
  | 'r' => some '\r'
  | 't' => some '\t'
  | _ => none

/-- The number that four hexadecimal digits write. -/
def codeUnit? (a b c d : Char) : Option Nat := do
  let a ← hexValue? a
  let b ← hexValue? b
  let c ← hexValue? c
  let d ← hexValue? d
  return ((a * 16 + b) * 16 + c) * 16 + d

/-- What a 16-bit escape stands for after a pending high half: a character, or a high half that is
now pending. A low half needs a pending high half and nothing else may follow one. -/
def ofCodeUnit? (pending : Option Nat) (unit : Nat) : Option (Char ⊕ Nat) :=
  match pending with
  | some high =>
      if 0xDC00 ≤ unit ∧ unit < 0xE000 then
        some (.inl (Char.ofNat (0x10000 + (high - 0xD800) * 0x400 + (unit - 0xDC00))))
      else none
  | none =>
      if 0xD800 ≤ unit ∧ unit < 0xDC00 then some (.inr unit)
      else if 0xDC00 ≤ unit ∧ unit < 0xE000 then none
      else some (.inl (Char.ofNat unit))

mutual

/-- The tokens of the text, given the word collected so far, last character first. -/
def scan (collected : List Char) : List Char → Option (List Token)
  | [] => some (ofWord collected)
  | c :: rest =>
      if c = '"' then (ofWord collected ++ ·) <$> scanString [] none rest
      else if isBlank c then (ofWord collected ++ ·) <$> scan [] rest
      else match ofPunctuation? c with
        | some token => (ofWord collected ++ token :: ·) <$> scan [] rest
        | none => scan (c :: collected) rest

/-- The tokens from within a string, given its characters so far, last first, and a high half of a
surrogate pair if the low half must follow. -/
def scanString (collected : List Char) (pending : Option Nat) : List Char → Option (List Token)
  | [] => none
  | '\\' :: 'u' :: a :: b :: c :: d :: rest =>
      match (codeUnit? a b c d).bind (ofCodeUnit? pending) with
      | some (.inl character) => scanString (character :: collected) none rest
      | some (.inr high) => scanString collected (some high) rest
      | none => none
  | '\\' :: c :: rest =>
      match pending, unescape? c with
      | none, some character => scanString (character :: collected) none rest
      | _, _ => none
  | c :: rest =>
      if pending.isSome then none
      else if c = '"' then (string (String.ofList collected.reverse) :: ·) <$> scan [] rest
      else if c = '\\' ∨ c.toNat < 0x20 then none
      else scanString (c :: collected) none rest

end

/-- The tokens of a text. -/
def ofText? (text : List Char) : Option (List Token) :=
  scan [] text

end Token

end MenuPlan.Json

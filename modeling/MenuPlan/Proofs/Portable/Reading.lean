/-
# JSON text read as YAML

All documents are read as YAML, and a document may be written in JSON as far as JSON text is YAML.
A text that is spelled in a portable way is: it has the value that the reader of JSON finds, and the
document is the one with this value at its root.

Other JSON text is not. To name one of the reasons, the reader of YAML knows no surrogate pairs and
refuses a text that is written with them.
-/

import MenuPlan.Outline
import MenuPlan.Proofs.Portable.Decimals
import MenuPlan.Proofs.Portable.Nodes
import MenuPlan.Proofs.Portable.Scanning

namespace MenuPlan

namespace Portable

/-- A text that is spelled in a portable way. -/
def IsPortable (text : String) : Prop :=
  ∃ leading lexemes, IsSpelling text leading lexemes

/-- The reader of JSON cuts the text into the lexemes that it is spelled with. -/
theorem IsSpelling.tokens {text : String} {leading : List Char} {lexemes : List Lexeme}
    (isSpelling : IsSpelling text leading lexemes) :
    Json.Token.ofText? text.toList = some (lexemes.map Lexeme.token) := by
  rw [Json.Token.ofText?, isSpelling.isText, scan_blanks isSpelling.isGap,
    scan_textOf isSpelling.precede]

/-- The words among the lexemes are spelled in a portable way. -/
theorem spellsWord_of_mem {lexemes : List Lexeme} {text : List Char}
    (member : .word text ∈ lexemes.map Lexeme.token) : SpellsWord text := by
  obtain ⟨lexeme, -, isWord⟩ := List.mem_map.mp member
  have isSpelled := lexeme.isSpelled
  rw [isWord] at isSpelled
  exact isSpelled.spellsWord.2

/-- What the reader of JSON finds in a portable text, the reader of YAML finds in it. -/
theorem read?_of_isPortable {text : String} {value : Data} (portable : IsPortable text)
    (isJson : Json.read? text = some value) : Yaml.read? text = some value := by
  obtain ⟨leading, lexemes, isSpelling⟩ := portable
  have completes : (lexemes.map Lexeme.token).foldlM Json.Reading.step (.beforeValue []) =
      some (.finished value) := by
    rw [Json.read?, isSpelling.tokens, Option.bind_eq_bind, Option.bind_some, Json.ofTokens?]
      at isJson
    obtain ⟨reading, isReading, isResult⟩ := Option.bind_eq_some_iff.mp isJson
    cases reading with
    | finished found =>
        cases isResult
        exact isReading
    | _ => cases isResult
  obtain ⟨node, isNode, hasValue⟩ :=
    Corresponds.start.run (fun _ => spellsWord_of_mem) completes
  have isRoot : Yaml.Node.ofTokens?
      (translateAll (.beforeValue []) (lexemes.map Lexeme.token)) = some (some node) := by
    rw [Yaml.Node.ofTokens?, isNode]
    rfl
  have isValue : Yaml.ofNode? node = some value := by
    rw [Yaml.ofNode?]
    exact congrArg (Option.map Prod.fst) (hasValue _ 0)
  rw [Yaml.read?, isSpelling.ofText? completes]
  simp only [Option.bind_eq_bind, Option.bind_some, isRoot, isValue]

/-- A token of one character. -/
def Lexeme.ofMark (c : Char) {token : Json.Token}
    (isToken : Json.Token.ofPunctuation? c = some token) (gap : List Char)
    (isGap : gap.all Json.Token.isBlank = true) : Lexeme :=
  ⟨[c], token, gap, .punctuation isToken, List.all_eq_true.mp isGap⟩

/-- A string without a gap behind it. -/
def Lexeme.ofText {spelled text : List Char} (isText : SpellsText spelled text) : Lexeme :=
  ⟨_, _, [], .string isText, List.forall_mem_nil _⟩

/-- A number without a gap behind it. -/
def Lexeme.ofNumeral {n : Numeral} (portable : n.IsPortable) : Lexeme :=
  ⟨_, _, [], .word (.numeral n portable), List.forall_mem_nil _⟩

/-- A document in JSON, with an escape, a number that is not whole and a broken line. -/
def sample : String :=
  "\x7b\"breadcrumbs\": \x7b\"s\": [-2.5e3,\n\t\"\\u00e9\"]\x7d\x7d\n"

/-- The number of the sample as it is spelled. -/
def sampleNumeral : Numeral where
  negative := true
  whole := ['2']
  fraction := ['5']
  scale := ['e', '3']
  exponent := 3
  nonempty := by decide
  isWhole := by simp [Char.isDigit]
  isFraction := by simp [Char.isDigit]
  isExponent := .unsigned (.inl rfl) (by decide) (by simp [Char.isDigit])

/-- It is short enough to be portable. -/
theorem isPortable_sampleNumeral : sampleNumeral.IsPortable :=
  sampleNumeral.isPortable_of_short (by decide) (by decide)
    fun isWhole => absurd isWhole.1 (List.cons_ne_nil _ _)

/-- The name of its first member is spelled as it is. -/
theorem spellsText_breadcrumbs :
    SpellsText "breadcrumbs".toList "breadcrumbs".toList :=
  spellsText_self (by simp [Yaml.isLineEnd])

/-- So is that of its second. -/
theorem spellsText_s : SpellsText ['s'] ['s'] :=
  spellsText_self (by simp [Yaml.isLineEnd])

/-- The last string is one escape. -/
theorem spellsText_escape : SpellsText (['\\', 'u', '0', '0', 'e', '9'] ++ []) ['é'] :=
  .cons (.unit (show Json.Token.codeUnit? '0' '0' 'e' '9' = some 233 by decide) (by decide)) .nil

/-- The tokens of the sample as they are spelled. -/
def sampleLexemes : List Lexeme :=
  [.ofMark '{' rfl [] rfl, .ofText spellsText_breadcrumbs, .ofMark ':' rfl [' '] rfl,
    .ofMark '{' rfl [] rfl, .ofText spellsText_s, .ofMark ':' rfl [' '] rfl,
    .ofMark '[' rfl [] rfl, .ofNumeral isPortable_sampleNumeral,
    .ofMark ',' rfl ['\n', '\t'] rfl, .ofText spellsText_escape, .ofMark ']' rfl [] rfl,
    .ofMark '}' rfl [] rfl, .ofMark '}' rfl ['\n'] rfl]

/-- The sample is spelled in a portable way. -/
theorem isPortable_sample : IsPortable sample := by
  refine ⟨[], sampleLexemes, ?_⟩
  exact {
    isText := by decide +kernel
    isPrintable := List.all_eq_true.mp (by decide +kernel)
    isLeading := List.forall_mem_nil _
    precede := by decide +kernel
    isTrailing := by
      intro last isLast _
      cases isLast
      exact tabsInLine_of_noTab (by decide) }

end Portable

namespace Outline

open Portable

/-- A portable text in JSON is the document whose root is what the reader of JSON finds. -/
theorem parse_of_isPortable (text : String) (root : Data) (portable : IsPortable text)
    (isJson : Json.read? text = some root) : parse text = ofData root := by
  rw [parse, read?_of_isPortable portable isJson]

/-- The sample is the document that the reader of JSON finds in it. -/
theorem parse_sample : IsPortable sample ∧
    ∃ root, Json.read? sample = some root ∧ parse sample = ofData root ∧
      (ofData root).toOption.map Outline.breadcrumbs = some [("s", .array [
        .number (.real ⟨true, 5497558138880000, 1033, by decide⟩), .string "é"])] := by
  have isJson : (Json.read? sample).map (fun root =>
      (ofData root).toOption.map Outline.breadcrumbs) = some (some [("s", .array [
        .number (.real ⟨true, 5497558138880000, 1033, by decide⟩), .string "é"])]) := by
    decide +kernel
  obtain ⟨root, isRead, isDocument⟩ := Option.map_eq_some_iff.mp isJson
  exact ⟨isPortable_sample, root, isRead, parse_of_isPortable sample root isPortable_sample isRead,
    isDocument⟩

/-- A document in JSON with one member, and blanks before its colon. -/
def withMember (blanks value : String) : String :=
  "\x7b\"breadcrumbs\":\x7b\"s\"" ++ blanks ++ ":" ++ value ++ "\x7d\x7d"

/-- A document in JSON with a surrogate pair. -/
def surrogatePair : String :=
  withMember "" "\"\\ud83d\\ude00\""

/-- The reader of JSON finds a document in it, and the text is refused. -/
theorem surrogatePair_refused :
    (Json.read? surrogatePair).map ofData = some (.ok { breadcrumbs := [("s", .string "😀")] }) ∧
      parse surrogatePair = .error (.parse malformed) := by
  decide +kernel

/-- Documents in JSON that are not portable for one other reason each: a character that is not
printable, a blank behind one that ends a line, an integer out of range and one that has only a
sign, a number that is rounded twice, a name that is not in the line of its colon, and tabs around
the text. -/
def unportable : List String :=
  [withMember "" "\"\x7f\"", withMember "" "\"\u2028 \"",
    withMember "" "18446744073709551616", withMember "" "-0", withMember "" "4.008641975230864e38",
    withMember "\n" "1", "\t" ++ withMember "" "1", withMember "" "1" ++ "\n\t"]

/-- The reader of JSON finds a document in each of them, and it is refused or read as another. -/
theorem unportable_read_differently :
    ∀ text ∈ unportable, ∃ root, Json.read? text = some root ∧ (ofData root).isOk = true ∧
      parse text ≠ ofData root := by
  have each : ∀ text ∈ unportable,
      ((Json.read? text).map fun root =>
        decide ((ofData root).isOk = true ∧ parse text ≠ ofData root)) = some true := by
    decide +kernel
  intro text member
  obtain ⟨root, isRead, differs⟩ := Option.map_eq_some_iff.mp (each text member)
  exact ⟨root, isRead, of_decide_eq_true differs⟩

end Outline

end MenuPlan

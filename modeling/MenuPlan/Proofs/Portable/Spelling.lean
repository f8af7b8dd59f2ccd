/-
# Portable spellings

JSON text that a reader of YAML reads as the same value. The text is cut into lexemes, each a token
as it is spelled with the blanks behind it, and a spelling is portable under conditions on what YAML
reads in another way:
- characters between quotes may be escaped, but not by a surrogate pair, and those that stand for
  themselves are printable and end no line;
- an integer of at most 128 bits without fraction and exponent is one that a document can hold, and
  not `-0`; for any other number the two readers round to the same one;
- a name and its colon are on one line, with at most 1024 characters up to the colon;
- there is no tab before the first token, and none behind a line break after the last, unless that
  is a word.

The scanner of JSON cuts the text of lexemes into their tokens.
-/

import MenuPlan.Proofs.Json.Literal
import MenuPlan.Yaml.Glyph
import MenuPlan.Yaml.Scalar

namespace MenuPlan.Portable

open Json (Token)

/-- The spellings of a character between quotes. -/
inductive SpellsChar : List Char → Char → Prop where
  | plain {c : Char} (noQuote : c ≠ '"') (noBackslash : c ≠ '\\') (visible : 0x20 ≤ c.toNat)
      (inLine : Yaml.isLineEnd c = false) : SpellsChar [c] c
  | short {letter c : Char} (isEscape : Token.unescape? letter = some c) :
      SpellsChar ['\\', letter] c
  | unit {a b c d : Char} {n : Nat} (isUnit : Token.codeUnit? a b c d = some n)
      (noSurrogate : n < 0xD800 ∨ 0xE000 ≤ n) : SpellsChar ['\\', 'u', a, b, c, d] (Char.ofNat n)

/-- The spellings of a text between quotes. -/
inductive SpellsText : List Char → List Char → Prop where
  | nil : SpellsText [] []
  | cons {spelled rest text : List Char} {c : Char} (first : SpellsChar spelled c)
      (later : SpellsText rest text) : SpellsText (spelled ++ rest) (c :: text)

/-- A text is spelled as it is when each character can stand for itself. -/
theorem spellsText_self {text : List Char}
    (arePlain : ∀ c ∈ text, c ≠ '"' ∧ c ≠ '\\' ∧ 0x20 ≤ c.toNat ∧ Yaml.isLineEnd c = false) :
    SpellsText text text := by
  induction text with
  | nil => exact .nil
  | cons c text ih =>
      obtain ⟨⟨noQuote, noBackslash, visible, inLine⟩, later⟩ := List.forall_mem_cons.mp arePlain
      exact .cons (.plain noQuote noBackslash visible inLine) (ih later)

/-- The spellings of an exponent behind the letter; nothing is zero. -/
inductive SpellsExponent : List Char → Int → Prop where
  | absent : SpellsExponent [] 0
  | unsigned {letter : Char} {digits : List Char} (isLetter : letter = 'e' ∨ letter = 'E')
      (nonempty : digits ≠ []) (isDigits : ∀ c ∈ digits, c.isDigit = true) :
      SpellsExponent (letter :: digits) (Nat.ofDigitChars 10 digits 0)
  | positive {letter : Char} {digits : List Char} (isLetter : letter = 'e' ∨ letter = 'E')
      (nonempty : digits ≠ []) (isDigits : ∀ c ∈ digits, c.isDigit = true) :
      SpellsExponent (letter :: '+' :: digits) (Nat.ofDigitChars 10 digits 0)
  | negative {letter : Char} {digits : List Char} (isLetter : letter = 'e' ∨ letter = 'E')
      (nonempty : digits ≠ []) (isDigits : ∀ c ∈ digits, c.isDigit = true) :
      SpellsExponent (letter :: '-' :: digits) (-Nat.ofDigitChars 10 digits 0)

/-- A number as it is spelled. -/
structure Numeral where
  negative : Bool
  whole : List Char
  fraction : List Char
  /-- The exponent with its letter, or nothing. -/
  scale : List Char
  exponent : Int
  nonempty : whole ≠ []
  isWhole : ∀ c ∈ whole, c.isDigit = true
  isFraction : ∀ c ∈ fraction, c.isDigit = true
  isExponent : SpellsExponent scale exponent

namespace Numeral

/-- What follows the digits before the point. -/
def tail (n : Numeral) : List Char :=
  Json.Literal.fractionText n.fraction ++ n.scale

/-- The number without its sign. -/
def unsigned (n : Numeral) : List Char :=
  n.whole ++ n.tail

/-- The number as it is written. -/
def text (n : Numeral) : List Char :=
  (if n.negative then ['-'] else []) ++ n.unsigned

/-- All digits as one number. -/
def digits (n : Numeral) : Nat :=
  Nat.ofDigitChars 10 (n.whole ++ n.fraction) 0

/-- The power of ten that goes with the digits. -/
def power (n : Numeral) : Int :=
  n.exponent - n.fraction.length

/-- Neither a fraction nor an exponent. -/
def IsWhole (n : Numeral) : Prop :=
  n.fraction = [] ∧ n.scale = []

/-- The integer that is written without fraction and exponent. -/
def integer (n : Numeral) : Int :=
  if n.negative then -n.digits else n.digits

/-- An integer for the reader of YAML. -/
def IsInteger (n : Numeral) : Prop :=
  n.IsWhole ∧ Yaml.FitsWide n.integer

/-- An integer must be one that a document can hold, and not `-0`. What the reader of JSON makes of
any other number must be the number that is nearest to it. -/
structure IsPortable (n : Numeral) : Prop where
  integer : n.IsInteger → InRange n.integer ∧ ¬ (n.negative = true ∧ n.digits = 0)
  real : ¬ n.IsInteger → ∀ x, Json.number? n.text = some (.real x) →
    Binary64.ofDecimal n.negative n.digits n.power = some x

end Numeral

/-- The words that can be read alike. -/
inductive SpellsWord : List Char → Prop where
  | nameNull : SpellsWord ['n', 'u', 'l', 'l']
  | nameTrue : SpellsWord ['t', 'r', 'u', 'e']
  | nameFalse : SpellsWord ['f', 'a', 'l', 's', 'e']
  | numeral (n : Numeral) (portable : n.IsPortable) : SpellsWord n.text

/-- The spellings of a token. -/
inductive Spells : List Char → Token → Prop where
  | punctuation {c : Char} {token : Token} (isToken : Token.ofPunctuation? c = some token) :
      Spells [c] token
  | string {spelled text : List Char} (isText : SpellsText spelled text) :
      Spells ('"' :: (spelled ++ ['"'])) (.string (String.ofList text))
  | word {text : List Char} (isWord : SpellsWord text) : Spells text (.word text)

/-- A token as it is spelled, with the blanks behind it. -/
structure Lexeme where
  spelled : List Char
  token : Token
  gap : List Char
  isSpelled : Spells spelled token
  isGap : ∀ c ∈ gap, Token.isBlank c = true

/-- The text of lexemes. -/
def textOf (lexemes : List Lexeme) : List Char :=
  lexemes.flatMap fun lexeme => lexeme.spelled ++ lexeme.gap

@[simp] theorem textOf_nil : textOf [] = [] := rfl

@[simp] theorem textOf_cons (lexeme : Lexeme) (rest : List Lexeme) :
    textOf (lexeme :: rest) = lexeme.spelled ++ (lexeme.gap ++ textOf rest) := by
  rw [textOf, List.flatMap_cons, List.append_assoc]
  rfl

/-- A token that begins with a letter of a word, which another word must not follow directly. -/
def IsWord (token : Token) : Prop :=
  ∃ text, token = .word text

instance (token : Token) : Decidable (IsWord token) :=
  match token with
  | .word text => .isTrue ⟨text, rfl⟩
  | .openArray | .closeArray | .openObject | .closeObject | .comma | .colon | .string _ =>
      .isFalse nofun

/-- A lexeme can be followed by another. Words are apart, and a name is close to its colon. -/
@[mk_iff]
structure Lexeme.Precedes (first second : Lexeme) : Prop where
  apart : IsWord first.token → IsWord second.token → first.gap ≠ []
  inLine : second.token = .colon → ∀ c ∈ first.gap, c = ' ' ∨ c = '\t'
  close : second.token = .colon → first.spelled.length + first.gap.length ≤ 1024

instance (first second : Lexeme) : Decidable (first.Precedes second) :=
  -- Without this the instance would go through all characters there are.
  have : Decidable (∀ c ∈ first.gap, c = ' ' ∨ c = '\t') := List.decidableBAll _ _
  decidable_of_iff _ (Lexeme.precedes_iff first second).symm

/-- Blanks without a tab behind a line break. -/
def TabsInLine (gap : List Char) : Prop :=
  ∀ before after, gap = before ++ '\t' :: after → ∀ c ∈ before, c = ' ' ∨ c = '\t'

/-- Blanks without any tab. -/
theorem tabsInLine_of_noTab {gap : List Char} (noTab : '\t' ∉ gap) : TabsInLine gap := by
  rintro before after rfl
  exact absurd (List.mem_append_right before List.mem_cons_self) noTab

/-- A text is spelled in a portable way, with these blanks in front and these lexemes. -/
structure IsSpelling (text : String) (leading : List Char) (lexemes : List Lexeme) : Prop where
  isText : text.toList = leading ++ textOf lexemes
  isPrintable : ∀ c ∈ text.toList, Yaml.isPrintable c = true
  isLeading : ∀ c ∈ leading, c = ' ' ∨ c = '\n' ∨ c = '\r'
  precede : lexemes.IsChain Lexeme.Precedes
  isTrailing : ∀ last ∈ lexemes.getLast?, ¬ IsWord last.token → TabsInLine last.gap

/-! ## Scanning -/

/-- Between quotes a spelled character is read as the character. -/
theorem SpellsChar.scanString {spelled : List Char} {c : Char} (isChar : SpellsChar spelled c)
    (collected rest : List Char) :
    Token.scanString collected none (spelled ++ rest) =
      Token.scanString (c :: collected) none rest := by
  cases isChar with
  | plain noQuote noBackslash visible _ =>
      rw [List.singleton_append, Token.scanString]
      · simp [noQuote, noBackslash, visible]
      · intro _ _ _ _ _ isBackslash
        exact absurd isBackslash noBackslash
      · intro _ _ isBackslash
        exact absurd isBackslash noBackslash
  | @short letter _ isEscape =>
      unfold Token.unescape? at isEscape
      split at isEscape
      case h_9 => cases isEscape
      all_goals
        cases isEscape
        rfl
  | @unit a b c d n isUnit noSurrogate =>
      have isChar : Token.ofCodeUnit? none n = some (.inl (Char.ofNat n)) := by
        rw [Token.ofCodeUnit?, if_neg (by omega), if_neg (by omega)]
      simp only [List.cons_append, List.nil_append, Token.scanString, isUnit, Option.bind_some,
        isChar]

/-- Between quotes a spelled text is collected. -/
theorem SpellsText.scanString {spelled text : List Char} (isText : SpellsText spelled text)
    (collected rest : List Char) :
    Token.scanString collected none (spelled ++ '"' :: rest) =
      (.string (String.ofList (collected.reverse ++ text)) :: ·) <$> Token.scan [] rest := by
  induction isText generalizing collected with
  | nil => simp [Token.scanString]
  | cons first _ ih =>
      rw [List.append_assoc, first.scanString, ih, List.reverse_cons, List.append_assoc]
      rfl

/-- The characters of portable words. -/
def IsLetter (c : Char) : Prop :=
  c.isAlphanum = true ∨ c = '+' ∨ c = '-' ∨ c = '.'

/-- Other characters are told apart from these by themselves. -/
theorem IsLetter.ne {c other : Char} (isLetter : IsLetter c)
    (noLetter : other.isAlphanum = false ∧ other ≠ '+' ∧ other ≠ '-' ∧ other ≠ '.') :
    c ≠ other := by
  rintro rfl
  rcases isLetter with isAlphanum | rfl | rfl | rfl
  · rw [noLetter.1] at isAlphanum
    cases isAlphanum
  · exact noLetter.2.1 rfl
  · exact noLetter.2.2.1 rfl
  · exact noLetter.2.2.2 rfl

/-- A digit is a letter of a word. -/
theorem isLetter_of_isDigit {c : Char} (isDigit : c.isDigit = true) : IsLetter c := by
  left
  rw [Char.isAlphanum, isDigit, Bool.or_true]

/-- A letter of a word is neither blank nor punctuation. -/
theorem IsLetter.isWordChar {c : Char} (isLetter : IsLetter c) : Token.isWordChar c = true := by
  have noPunctuation : Token.ofPunctuation? c = none := by
    unfold Token.ofPunctuation?
    split
    case h_7 => rfl
    all_goals exact absurd rfl (isLetter.ne (by decide))
  have noQuote : c ≠ '"' := isLetter.ne (by decide)
  have noBlank : c ≠ ' ' ∧ c ≠ '\n' ∧ c ≠ '\t' ∧ c ≠ '\r' :=
    ⟨isLetter.ne (by decide), isLetter.ne (by decide), isLetter.ne (by decide),
      isLetter.ne (by decide)⟩
  simp [Token.isWordChar, Token.isBlank, noPunctuation, noQuote, noBlank]

/-- The characters of numbers. -/
def IsNumeric (c : Char) : Prop :=
  c.isDigit = true ∨ c ∈ ['+', '-', '.', 'e', 'E']

/-- They are letters of words. -/
theorem IsNumeric.isLetter {c : Char} (isNumeric : IsNumeric c) : IsLetter c := by
  rcases isNumeric with isDigit | isMark
  · exact isLetter_of_isDigit isDigit
  · fin_cases isMark
    · exact .inr (.inl rfl)
    · exact .inr (.inr (.inl rfl))
    · exact .inr (.inr (.inr rfl))
    · exact .inl rfl
    · exact .inl rfl

/-- The characters of an exponent. -/
theorem SpellsExponent.isNumeric {scale : List Char} {exponent : Int}
    (isExponent : SpellsExponent scale exponent) : ∀ c ∈ scale, IsNumeric c := by
  have isMarker : ∀ {letter : Char}, letter = 'e' ∨ letter = 'E' → IsNumeric letter := by
    rintro _ (rfl | rfl)
    · exact .inr (by decide)
    · exact .inr (by decide)
  cases isExponent with
  | absent => exact List.forall_mem_nil _
  | unsigned isE _ isDigits =>
      exact List.forall_mem_cons.mpr ⟨isMarker isE, fun c member => .inl (isDigits c member)⟩
  | positive isE _ isDigits =>
      exact List.forall_mem_cons.mpr ⟨isMarker isE, List.forall_mem_cons.mpr
        ⟨.inr (by decide), fun c member => .inl (isDigits c member)⟩⟩
  | negative isE _ isDigits =>
      exact List.forall_mem_cons.mpr ⟨isMarker isE, List.forall_mem_cons.mpr
        ⟨.inr (by decide), fun c member => .inl (isDigits c member)⟩⟩

namespace Numeral

/-- A number begins with a digit behind its sign. -/
theorem exists_unsigned_eq_cons (n : Numeral) :
    ∃ c rest, n.unsigned = c :: rest ∧ c.isDigit = true := by
  obtain ⟨c, rest, isWhole⟩ := List.exists_cons_of_ne_nil n.nonempty
  refine ⟨c, rest ++ n.tail, ?_, ?_⟩
  · rw [unsigned, isWhole, List.cons_append]
  · exact n.isWhole c (isWhole ▸ List.mem_cons_self)

/-- The characters of a number behind its sign. -/
theorem isNumeric (n : Numeral) : ∀ c ∈ n.unsigned, IsNumeric c := by
  have fraction : ∀ c ∈ Json.Literal.fractionText n.fraction, IsNumeric c := by
    have isFraction := n.isFraction
    generalize n.fraction = fraction at isFraction ⊢
    cases fraction with
    | nil => exact List.forall_mem_nil _
    | cons first rest =>
        refine List.forall_mem_cons.mpr ⟨.inr (by decide), ?_⟩
        exact fun c member => .inl (isFraction c member)
  refine List.forall_mem_append.mpr ⟨?_, List.forall_mem_append.mpr
    ⟨fraction, n.isExponent.isNumeric⟩⟩
  exact fun c member => .inl (n.isWhole c member)

/-- A number is a word. -/
theorem isLetter (n : Numeral) : ∀ c ∈ n.text, IsLetter c := by
  have sign : ∀ c ∈ (if n.negative then ['-'] else []), IsLetter c := by
    split_ifs
    · exact List.forall_mem_singleton.mpr (.inr (.inr (.inl rfl)))
    · exact List.forall_mem_nil _
  exact List.forall_mem_append.mpr ⟨sign, fun c member => (n.isNumeric c member).isLetter⟩

end Numeral

/-- The letters of a word. -/
theorem SpellsWord.isLetter {text : List Char} (isWord : SpellsWord text) :
    ∀ c ∈ text, IsLetter c := by
  cases isWord with
  | nameNull | nameTrue | nameFalse =>
      exact fun c member => .inl (List.all_eq_true.mp rfl c member)
  | numeral n _ => exact n.isLetter

/-- A word begins with a letter of the alphabet or a digit, or with a sign and a digit. -/
theorem SpellsWord.exists_eq_cons {text : List Char} (isWord : SpellsWord text) :
    ∃ c rest, text = c :: rest ∧ (c.isAlphanum = true ∨
      c = '-' ∧ ∃ d more, rest = d :: more ∧ d.isDigit = true) := by
  cases isWord with
  | nameNull | nameTrue | nameFalse => exact ⟨_, _, rfl, .inl rfl⟩
  | numeral n _ =>
      obtain ⟨c, rest, isUnsigned, isDigit⟩ := n.exists_unsigned_eq_cons
      rw [Numeral.text, isUnsigned]
      cases n.negative with
      | true => exact ⟨'-', c :: rest, rfl, .inr ⟨rfl, c, rest, rfl, isDigit⟩⟩
      | false => exact ⟨c, rest, rfl, .inl (by rw [Char.isAlphanum, isDigit, Bool.or_true])⟩

/-- Punctuation is neither a quote nor a blank. -/
theorem not_isWordChar_of_ofPunctuation? {c : Char} {token : Token}
    (isToken : Token.ofPunctuation? c = some token) : c ≠ '"' ∧ Token.isBlank c = false := by
  unfold Token.ofPunctuation? at isToken
  split at isToken
  case h_7 => cases isToken
  all_goals exact ⟨by decide, rfl⟩

/-- A blank is no part of a word. -/
theorem isWordChar_of_isBlank {c : Char} (blank : Token.isBlank c = true) :
    Token.isWordChar c = false := by
  simp [Token.isWordChar, blank]

/-- A token that is no word begins with a boundary. -/
theorem Spells.atBoundary {spelled : List Char} {token : Token} (isSpelled : Spells spelled token)
    (noWord : ¬ IsWord token) (rest : List Char) : Token.AtBoundary (spelled ++ rest) := by
  cases isSpelled with
  | punctuation isToken =>
      rw [List.singleton_append, Token.atBoundary_cons]
      simp [Token.isWordChar, isToken]
  | string _ => exact (Token.atBoundary_cons _ _).mpr rfl
  | word _ => exact absurd ⟨_, rfl⟩ noWord

/-- Behind a word comes a boundary. -/
theorem atBoundary_of_isChain {first : Lexeme} {rest : List Lexeme}
    (precede : (first :: rest).IsChain Lexeme.Precedes) (isWord : IsWord first.token) :
    Token.AtBoundary (first.gap ++ textOf rest) := by
  cases isGap : first.gap with
  | cons blank more =>
      rw [List.cons_append, Token.atBoundary_cons]
      exact isWordChar_of_isBlank (first.isGap blank (isGap ▸ List.mem_cons_self))
  | nil =>
      cases rest with
      | nil => exact Token.atBoundary_nil
      | cons second rest =>
          have apart := (List.isChain_cons_cons.mp precede).1.apart isWord
          rw [List.nil_append, textOf_cons]
          exact second.isSpelled.atBoundary (fun isNext => apart isNext isGap) _

/-- Blanks leave no tokens. -/
theorem scan_blanks {gap : List Char} (isGap : ∀ c ∈ gap, Token.isBlank c = true)
    (rest : List Char) : Token.scan [] (gap ++ rest) = Token.scan [] rest := by
  induction gap with
  | nil => rfl
  | cons c gap ih =>
      obtain ⟨blank, blanks⟩ := List.forall_mem_cons.mp isGap
      rw [List.cons_append, Token.scan_blank blank, ih blanks]

/-- Lexemes are cut into their tokens. -/
theorem scan_textOf {lexemes : List Lexeme} (precede : lexemes.IsChain Lexeme.Precedes) :
    Token.scan [] (textOf lexemes) = some (lexemes.map Lexeme.token) := by
  induction lexemes with
  | nil => rfl
  | cons lexeme rest ih =>
      have later : Token.scan [] (lexeme.gap ++ textOf rest) = some (rest.map Lexeme.token) := by
        rw [scan_blanks lexeme.isGap, ih precede.tail]
      have boundary := atBoundary_of_isChain precede
      obtain ⟨spelled, token, gap, isSpelled, isGap⟩ := lexeme
      rw [textOf_cons, List.map_cons]
      cases isSpelled with
      | @punctuation c _ isToken =>
          obtain ⟨noQuote, noBlank⟩ := not_isWordChar_of_ofPunctuation? isToken
          rw [List.singleton_append, Token.scan_punctuation isToken noQuote noBlank, later]
          rfl
      | string isText =>
          have inner := isText.scanString [] (gap ++ textOf rest)
          simp only [List.cons_append, List.append_assoc, List.nil_append]
          rw [Token.scan, if_pos rfl, inner, later]
          simp [Token.ofWord]
      | word isWord =>
          obtain ⟨c, more, isCons, -⟩ := isWord.exists_eq_cons
          have nonempty : spelled ≠ [] := isCons ▸ List.cons_ne_nil _ _
          rw [Token.scan_word nonempty (fun c member => (isWord.isLetter c member).isWordChar)
            (boundary ⟨_, rfl⟩), later]
          rfl

end MenuPlan.Portable

/-
# Scanning what has been written

How the scanner cuts the pieces that written text is put together from. Blanks and line breaks leave
no token, brackets, commas and colons are one token each, a string comes back with its escapes
undone, and a word is one token wherever something that ends it follows.
-/

import Mathlib
import MenuPlan.Json.Token
import MenuPlan.Json.Writer

namespace MenuPlan.Json

namespace Token

/-- A character that can only be part of a word. -/
def isWordChar (c : Char) : Bool :=
  c != '"' && !isBlank c && (ofPunctuation? c).isNone

/-- A word cannot go on here. -/
def AtBoundary (text : List Char) : Prop :=
  ∀ c ∈ text.head?, isWordChar c = false

@[simp] theorem atBoundary_nil : AtBoundary [] := by
  simp [AtBoundary]

@[simp] theorem atBoundary_cons (c : Char) (rest : List Char) :
    AtBoundary (c :: rest) ↔ isWordChar c = false := by
  simp [AtBoundary]

/-- A character of a word is collected. -/
theorem scan_cons_of_isWordChar (collected rest : List Char) {c : Char}
    (inWord : isWordChar c = true) :
    scan collected (c :: rest) = scan (c :: collected) rest := by
  simp only [isWordChar, Bool.and_eq_true, bne_iff_ne, Bool.not_eq_true', Option.isNone_iff_eq_none]
    at inWord
  obtain ⟨⟨noQuote, noBlank⟩, noPunctuation⟩ := inWord
  rw [scan, if_neg noQuote, noBlank, noPunctuation]
  rfl

theorem scan_append_of_isWordChar {text : List Char} (inWord : ∀ c ∈ text, isWordChar c = true)
    (collected rest : List Char) :
    scan collected (text ++ rest) = scan (text.reverse ++ collected) rest := by
  induction text generalizing collected with
  | nil => rfl
  | cons c text ih =>
      have later := ih (fun d member => inWord d (List.mem_cons_of_mem _ member))
      rw [List.cons_append, scan_cons_of_isWordChar _ _ (inWord c List.mem_cons_self), later,
        List.reverse_cons, List.append_assoc]
      rfl

/-- At a boundary the word that has been collected becomes a token. -/
theorem scan_of_atBoundary (collected : List Char) {rest : List Char}
    (boundary : AtBoundary rest) :
    scan collected rest = (ofWord collected ++ ·) <$> scan [] rest := by
  cases rest with
  | nil => simp [scan, ofWord]
  | cons c rest =>
      rw [atBoundary_cons] at boundary
      rw [scan, scan]
      by_cases quote : c = '"'
      · simp [quote, ofWord]
      · by_cases blank : isBlank c = true
        · simp [quote, blank, ofWord]
        · cases punctuation : ofPunctuation? c with
          | none => simp [isWordChar, quote, blank, punctuation] at boundary
          | some token => simp [quote, blank, ofWord, Function.comp_def]

/-- A word before a boundary is one token. -/
theorem scan_word {text rest : List Char} (nonempty : text ≠ [])
    (inWord : ∀ c ∈ text, isWordChar c = true) (boundary : AtBoundary rest) :
    scan [] (text ++ rest) = (word text :: ·) <$> scan [] rest := by
  rw [scan_append_of_isWordChar inWord, scan_of_atBoundary _ boundary, List.append_nil]
  have collected : ofWord text.reverse = [word text] := by
    cases reversed : text.reverse with
    | nil => exact absurd (List.reverse_eq_nil_iff.mp reversed) nonempty
    | cons c more =>
        have oneWord : ofWord (c :: more) = [word (c :: more).reverse] := rfl
        rw [oneWord, ← reversed, List.reverse_reverse]
  rw [collected]
  rfl

/-- A bracket, comma or colon is a token. -/
theorem scan_punctuation {c : Char} {token : Token} (isToken : ofPunctuation? c = some token)
    (noQuote : c ≠ '"') (noBlank : isBlank c = false) (rest : List Char) :
    scan [] (c :: rest) = (token :: ·) <$> scan [] rest := by
  rw [scan, if_neg noQuote, noBlank, isToken]
  rfl

/-- A blank leaves no token. -/
theorem scan_blank {c : Char} (blank : isBlank c = true) (rest : List Char) :
    scan [] (c :: rest) = scan [] rest := by
  have noQuote : c ≠ '"' := by
    rintro rfl
    cases blank
  rw [scan, if_neg noQuote, blank]
  simp [ofWord]

/-- A line break leaves no token. -/
theorem scan_lineBreak (layout : Layout) (level : Nat) (rest : List Char) :
    scan [] (layout.lineBreak level ++ rest) = scan [] rest := by
  cases layout with
  | compact => rfl
  | indented =>
      rw [Layout.lineBreak, List.cons_append, scan_blank rfl]
      induction 2 * level with
      | zero => rfl
      | succ blanks ih => rw [List.replicate_succ, List.cons_append, scan_blank rfl, ih]

/-- The two hexadecimal digits of a control character give it back. -/
theorem codeUnit?_hexDigits : ∀ n < 0x20,
    codeUnit? '0' '0' (hexDigit (n / 16)) (hexDigit (n % 16)) = some n := by
  decide

/-- Between quotes an escaped character is read as the character. -/
theorem scanString_escape (collected rest : List Char) (c : Char) :
    scanString collected none (escape c ++ rest) = scanString (c :: collected) none rest := by
  unfold escape
  split_ifs with quote backslash backspace formFeed newline carriageReturn tab control
  all_goals try subst c
  all_goals try rfl
  · have isUnit := codeUnit?_hexDigits c.toNat control
    have low : ¬ (0xD800 ≤ c.toNat ∧ c.toNat < 0xDC00) := by omega
    have lowEnd : ¬ (0xDC00 ≤ c.toNat ∧ c.toNat < 0xE000) := by omega
    simp only [List.cons_append, List.nil_append, scanString, isUnit, Option.bind_some, ofCodeUnit?,
      if_neg low, if_neg lowEnd, Char.ofNat_toNat]
  · rw [List.singleton_append, scanString]
    · simp [quote, backslash, control]
    · intro _ _ _ _ _ isBackslash
      exact absurd isBackslash backslash
    · intro _ _ isBackslash
      exact absurd isBackslash backslash

/-- A quoted string is one token. -/
theorem scan_quoted (s : String) (rest : List Char) :
    scan [] (quoted s ++ rest) = (string s :: ·) <$> scan [] rest := by
  have body : ∀ (characters collected : List Char),
      scanString collected none (characters.flatMap escape ++ '"' :: rest) =
        (string (String.ofList (collected.reverse ++ characters)) :: ·) <$> scan [] rest := by
    intro characters
    induction characters with
    | nil =>
        intro collected
        simp [scanString]
    | cons c characters ih =>
        intro collected
        rw [List.flatMap_cons, List.append_assoc, scanString_escape, ih, List.reverse_cons,
          List.append_assoc]
        rfl
  have inner := body s.toList []
  rw [quoted, escaped, List.cons_append, scan, if_pos rfl, List.append_assoc]
  simp only [List.cons_append, List.nil_append]
  rw [inner, List.reverse_nil, List.nil_append, String.ofList_toList]
  simp [ofWord]

end Token

end MenuPlan.Json

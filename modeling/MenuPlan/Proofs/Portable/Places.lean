/-
# Reading characters at their places

The scanner of YAML reads characters with their places. Here are its passes over the parts of a
portable text, each from wherever the part begins: gaps, strings and words. All but gaps are in one
line, so that only the column counts; a string does not begin in the first column, and so contains
no line that ends a document.
-/

import MenuPlan.Proofs.Portable.Spelling
import MenuPlan.Yaml.Token.Scan

namespace MenuPlan.Portable

open Json (Token)
open Yaml

variable {line column : Nat} {rest : List Char} {c : Char}

/-- A character that ends no line is followed by one in the next column. -/
theorem place_cons (inLine : isLineEnd c = false) :
    place line column (c :: rest) = ⟨c, line, column⟩ :: place line (column + 1) rest := by
  rw [place, if_neg (by rw [inLine]; exact Bool.false_ne_true)]
  rintro _ rfl _
  cases inLine

/-- A character that is not the first half of a line break is followed by what is put behind it. -/
theorem place_cons_of_isLineEnd (isEnd : isLineEnd c = true)
    (alone : ∀ more, c = '\r' → rest ≠ '\n' :: more) :
    place line column (c :: rest) = ⟨unifyLineEnd c, line, column⟩ :: place (line + 1) 0 rest := by
  rw [place, if_pos isEnd]
  rintro more rfl isBreak
  exact alone more rfl isBreak

/-- A character that ends no line is no break. -/
theorem isBreak_of_inLine (inLine : isLineEnd c = false) :
    Glyph.isBreak ⟨c, line, column⟩ = false := by
  simp only [isLineEnd, Bool.or_eq_false_iff] at inLine
  simp [Glyph.isBreak, inLine]

/-- A character that is put in a line of its own. -/
theorem isBlank_eq : Glyph.isBlank ⟨c, line, column⟩ = (c == ' ' || c == '\t') :=
  rfl

/-- Characters that end no line have glyphs of their own. -/
theorem countP_le_length_place (line column : Nat) (text : List Char) :
    text.countP (fun c => !isLineEnd c) ≤ (place line column text).length := by
  induction line, column, text using place.induct with
  | case1 => exact Nat.le_refl 0
  | case2 line column rest ih =>
      rw [place, List.length_cons]
      exact Nat.le_succ_of_le ih
  | case3 line column c rest alone isEnd ih =>
      rw [place_cons_of_isLineEnd isEnd (fun more => alone more), List.length_cons,
        List.countP_cons_of_neg (by rw [isEnd]; decide)]
      exact Nat.le_succ_of_le ih
  | case4 line column c rest alone noEnd ih =>
      have inLine : isLineEnd c = false := Bool.eq_false_iff.mpr noEnd
      rw [place_cons inLine, List.length_cons, List.countP_cons_of_pos (by rw [inLine]; rfl)]
      exact Nat.succ_le_succ ih

/-- The first glyph is a byte order mark only if the first character is one. -/
theorem head?_eq_of_place {line column : Nat} {text : List Char} {later : List Glyph}
    {markLine markColumn : Nat}
    (isMark : place line column text = ⟨'\uFEFF', markLine, markColumn⟩ :: later) :
    text.head? = some '\uFEFF' := by
  induction line, column, text using place.induct with
  | case1 => cases isMark
  | case2 line column rest =>
      rw [place] at isMark
      cases isMark
  | case3 line column c rest alone isEnd =>
      rw [place_cons_of_isLineEnd isEnd (fun more => alone more)] at isMark
      injection isMark with isGlyph
      injection isGlyph with isChar
      rw [unifyLineEnd] at isChar
      split_ifs at isChar
      · cases isChar
      · rw [isChar] at isEnd
        cases isEnd
  | case4 line column c rest alone noEnd =>
      rw [place_cons (Bool.eq_false_iff.mpr noEnd)] at isMark
      cases isMark
      rfl

/-- What follows a gap: nothing, or a character that ends it. -/
def EndsGap (rest : List Char) : Prop :=
  ∀ c ∈ rest.head?, isLineEnd c = false ∧ c ≠ ' ' ∧ c ≠ '\t' ∧ c ≠ '#'

/-- Tabs stand where they may: in a flow collection, or where no key can begin. -/
def TabsFit (inFlow : Bool) : Bool → List Char → Prop
  | _, [] => True
  | keyAllowed, c :: gap =>
      (c = '\t' → inFlow = true ∨ keyAllowed = false) ∧
        TabsFit inFlow (keyAllowed || (isLineEnd c && !inFlow)) gap

/-- A gap in flow collections. -/
theorem tabsFit_inFlow (keyAllowed : Bool) (gap : List Char) : TabsFit true keyAllowed gap := by
  induction gap generalizing keyAllowed with
  | nil => trivial
  | cons c gap ih => exact ⟨fun _ => .inl rfl, ih _⟩

/-- A gap without tabs. -/
theorem tabsFit_of_noTab (inFlow keyAllowed : Bool) {gap : List Char} (noTab : '\t' ∉ gap) :
    TabsFit inFlow keyAllowed gap := by
  induction gap generalizing keyAllowed with
  | nil => trivial
  | cons c gap ih =>
      rw [List.mem_cons, not_or] at noTab
      exact ⟨fun isTab => absurd isTab.symm noTab.1, ih _ noTab.2⟩

/-- A gap with no tab behind a line break, where no key can begin. -/
theorem tabsFit_of_tabsInLine (inFlow : Bool) {gap : List Char} (inLine : TabsInLine gap) :
    TabsFit inFlow false gap := by
  induction gap with
  | nil => trivial
  | cons c gap ih =>
      refine ⟨fun _ => .inr rfl, ?_⟩
      by_cases noTab : '\t' ∈ gap
      · obtain ⟨before, after, isSplit⟩ := List.append_of_mem noTab
        have isBlank : isLineEnd c = false := by
          rcases inLine (c :: before) after (by rw [isSplit]; rfl) c List.mem_cons_self with
            rfl | rfl
          · rfl
          · rfl
        rw [isBlank]
        refine ih fun before after isSplit d member => ?_
        exact inLine (c :: before) after (by rw [isSplit]; rfl) d (List.mem_cons_of_mem _ member)
      · exact tabsFit_of_noTab _ _ noTab

/-- Blanks, and breaks of either kind. -/
theorem isBlank_iff : Token.isBlank c = true ↔ c = ' ' ∨ c = '\t' ∨ c = '\n' ∨ c = '\r' := by
  simp only [Token.isBlank, Bool.or_eq_true, beq_iff_eq]
  tauto

/-- The glyphs of a gap, with those of the rest behind it. -/
inductive PlacesGap (rest : List Char) : List Char → List Glyph → Prop where
  | nil (line column : Nat) : PlacesGap rest [] (place line column rest)
  | blank {c : Char} {line column : Nat} {gap : List Char} {later : List Glyph}
      (isBlank : c = ' ' ∨ c = '\t') (behind : PlacesGap rest gap later) :
      PlacesGap rest (c :: gap) (⟨c, line, column⟩ :: later)
  | lineBreak {c : Char} {line column : Nat} {gap : List Char} {later : List Glyph}
      (isBreak : c = '\n' ∨ c = '\r') (behind : PlacesGap rest gap later) :
      PlacesGap rest (c :: gap) (⟨'\n', line, column⟩ :: later)
  | returnFeed {line column : Nat} {gap : List Char} {later : List Glyph}
      (behind : PlacesGap rest gap later) :
      PlacesGap rest ('\r' :: '\n' :: gap) (⟨'\n', line, column⟩ :: later)

/-- A gap has glyphs of its own when no line feed follows it. -/
theorem placesGap {gap : List Char} (line column : Nat)
    (isGap : ∀ c ∈ gap, Token.isBlank c = true) (noFeed : rest.head? ≠ some '\n') :
    PlacesGap rest gap (place line column (gap ++ rest)) := by
  induction line, column, gap using place.induct with
  | case1 line column => exact .nil line column
  | case2 line column gap ih =>
      rw [List.cons_append, List.cons_append, place]
      exact .returnFeed (ih fun c member =>
        isGap c (List.mem_cons_of_mem _ (List.mem_cons_of_mem _ member)))
  | case3 line column c gap alone isEnd ih =>
      have isBreak : c = '\n' ∨ c = '\r' := by
        rcases isBlank_iff.mp (isGap c List.mem_cons_self) with rfl | rfl | isBreak
        · cases isEnd
        · cases isEnd
        · exact isBreak
      have isUnified : unifyLineEnd c = '\n' := by
        rcases isBreak with rfl | rfl <;> rfl
      have aloneBefore : ∀ more, c = '\r' → gap ++ rest ≠ '\n' :: more := by
        intro more isReturn isFeed
        cases gap with
        | nil => exact noFeed (by rw [List.nil_append] at isFeed; rw [isFeed]; rfl)
        | cons d gap =>
            cases isFeed
            exact alone gap isReturn rfl
      rw [List.cons_append, place_cons_of_isLineEnd isEnd aloneBefore, isUnified]
      exact .lineBreak isBreak (ih fun c member => isGap c (List.mem_cons_of_mem _ member))
  | case4 line column c gap alone noEnd ih =>
      have inLine : isLineEnd c = false := Bool.eq_false_iff.mpr noEnd
      have isBlank : c = ' ' ∨ c = '\t' := by
        rcases isBlank_iff.mp (isGap c List.mem_cons_self) with isBlank | isBlank | rfl | rfl
        · exact .inl isBlank
        · exact .inr isBlank
        · cases inLine
        · cases inLine
      rw [List.cons_append, place_cons inLine]
      exact .blank isBlank (ih fun c member => isGap c (List.mem_cons_of_mem _ member))

/-- A break in a gap is passed over, and outside flow collections it allows a key. -/
theorem skipGap_break (inFlow keyAllowed : Bool) (later : List Glyph) :
    Scanner.skipGap inFlow keyAllowed false (⟨'\n', line, column⟩ :: later) =
      Scanner.skipGap inFlow (keyAllowed || !inFlow) false later :=
  rfl

/-- So is a blank. -/
theorem skipGap_blank (inFlow keyAllowed : Bool) (isBlank : c = ' ' ∨ c = '\t')
    (fits : c = '\t' → inFlow = true ∨ keyAllowed = false) (later : List Glyph) :
    Scanner.skipGap inFlow keyAllowed false (⟨c, line, column⟩ :: later) =
      Scanner.skipGap inFlow keyAllowed false later := by
  rcases isBlank with rfl | rfl
  · rfl
  · rcases fits rfl with rfl | rfl
    · rfl
    · cases inFlow <;> rfl

/-- A gap ends where it ends. -/
theorem skipGap_of_ends (inFlow keyAllowed : Bool) (ends : EndsGap rest) :
    Scanner.skipGap inFlow keyAllowed false (place line column rest) =
      (keyAllowed, place line column rest) := by
  cases rest with
  | nil => rfl
  | cons c more =>
      obtain ⟨inLine, noSpace, noTab, noComment⟩ := ends c rfl
      rw [place_cons inLine, Scanner.skipGap, isBreak_of_inLine inLine]
      simp [noSpace, noTab, noComment]

/-- What ends a gap is no line feed. -/
theorem EndsGap.noFeed (ends : EndsGap rest) : rest.head? ≠ some '\n' := by
  intro isFeed
  have noBreak := (ends '\n' (by rw [isFeed]; rfl)).1
  cases noBreak

/-- A gap is skipped. It allows a key where one was allowed, and where it breaks the line outside
flow collections. -/
theorem skipGap_gap (inFlow keyAllowed : Bool) {gap : List Char} {glyphs : List Glyph}
    (isGap : PlacesGap rest gap glyphs) (fits : TabsFit inFlow keyAllowed gap)
    (ends : EndsGap rest) :
    ∃ allowed endLine endColumn,
      Scanner.skipGap inFlow keyAllowed false glyphs = (allowed, place endLine endColumn rest) ∧
      (keyAllowed = true → allowed = true) := by
  induction isGap generalizing keyAllowed with
  | nil line column =>
      exact ⟨keyAllowed, line, column, skipGap_of_ends inFlow keyAllowed ends, id⟩
  | @blank c _ _ _ _ isBlank _ ih =>
      obtain ⟨fitsHere, fits⟩ := fits
      have inLine : isLineEnd c = false := by
        rcases isBlank with rfl | rfl <;> rfl
      rw [inLine, Bool.false_and, Bool.or_false] at fits
      rw [skipGap_blank _ _ isBlank fitsHere]
      exact ih keyAllowed fits
  | @lineBreak c _ _ _ _ isBreak _ ih =>
      obtain ⟨-, fits⟩ := fits
      have isEnd : isLineEnd c = true := by
        rcases isBreak with rfl | rfl <;> rfl
      rw [isEnd, Bool.true_and] at fits
      obtain ⟨allowed, endLine, endColumn, isSkipped, keeps⟩ := ih (keyAllowed || !inFlow) fits
      refine ⟨allowed, endLine, endColumn, ?_, fun isAllowed => keeps (by rw [isAllowed]; rfl)⟩
      rw [skipGap_break, isSkipped]
  | returnFeed _ ih =>
      obtain ⟨-, -, fits⟩ := fits
      have once : (isLineEnd '\r' && !inFlow || isLineEnd '\n' && !inFlow) = !inFlow :=
        Bool.or_self _
      rw [Bool.or_assoc, once] at fits
      obtain ⟨allowed, endLine, endColumn, isSkipped, keeps⟩ := ih (keyAllowed || !inFlow) fits
      refine ⟨allowed, endLine, endColumn, ?_, fun isAllowed => keeps (by rw [isAllowed]; rfl)⟩
      rw [skipGap_break, isSkipped]

/-- A gap in one line only counts columns. -/
theorem skipGap_place_inLine {gap : List Char} (inLine : ∀ c ∈ gap, c = ' ' ∨ c = '\t')
    (ends : EndsGap rest) (keyAllowed : Bool) (line column : Nat) :
    Scanner.skipGap true keyAllowed false (place line column (gap ++ rest)) =
      (keyAllowed, place line (column + gap.length) rest) := by
  induction gap generalizing column with
  | nil => exact skipGap_of_ends true keyAllowed ends
  | cons c gap ih =>
      obtain ⟨isBlank, areBlanks⟩ := List.forall_mem_cons.mp inLine
      have noEnd : isLineEnd c = false := by
        rcases isBlank with rfl | rfl <;> rfl
      rw [List.cons_append, place_cons noEnd, skipGap_blank _ _ isBlank fun _ => .inl rfl,
        ih areBlanks, List.length_cons, Nat.add_right_comm, Nat.add_assoc]

/-- A mark begins in the first column. -/
theorem atLineMark_of_column (inside : 0 < column) (mark : Char) (later : List Glyph) :
    atLineMark mark (⟨c, line, column⟩ :: later) = false := by
  have notFirst : (column == 0) = false := beq_false_of_ne (Nat.pos_iff_ne_zero.mp inside)
  rw [atLineMark.eq_def]
  split
  · rename_i isCons
    cases isCons
    rw [notFirst]
    simp
  · rfl

/-- A mark consists of its characters. -/
theorem atLineMark_of_ne {mark : Char} (differs : c ≠ mark) (later : List Glyph) :
    atLineMark mark (⟨c, line, column⟩ :: later) = false := by
  rw [atLineMark.eq_def]
  split
  · rename_i isCons
    cases isCons
    simp [differs]
  · rfl

/-- A line that ends a document begins in the first column. -/
theorem atDocumentMark_of_column (inside : 0 < column) (later : List Glyph) :
    atDocumentMark (⟨c, line, column⟩ :: later) = false := by
  rw [atDocumentMark, atLineMark_of_column inside, atLineMark_of_column inside]
  rfl

/-- A gap in one line stands for its blanks. -/
theorem after_of_unbroken {gap : Gap} (unbroken : gap.isBroken = false) (before : List Char) :
    gap.after before = gap.blanks ++ before := by
  rw [Gap.after, Gap.folded, unbroken]
  simp

/-- A short escape is known to YAML, and is no break. -/
theorem namedEscape?_of_unescape? {letter : Char} (isEscape : Token.unescape? letter = some c) :
    namedEscape? letter = some c ∧ isLineEnd letter = false := by
  unfold Token.unescape? at isEscape
  split at isEscape
  case h_9 => cases isEscape
  all_goals
    cases isEscape
    exact ⟨rfl, rfl⟩

/-- Four hexadecimal digits are in one line, and have values. -/
theorem hexValues_of_codeUnit? {a b c d : Char} {n : Nat}
    (isUnit : Token.codeUnit? a b c d = some n) :
    ∃ i j k l, Json.hexValue? a = some i ∧ Json.hexValue? b = some j ∧ Json.hexValue? c = some k ∧
      Json.hexValue? d = some l ∧ n = ((i * 16 + j) * 16 + k) * 16 + l := by
  obtain ⟨i, isFirst, isUnit⟩ := Option.bind_eq_some_iff.mp isUnit
  obtain ⟨j, isSecond, isUnit⟩ := Option.bind_eq_some_iff.mp isUnit
  obtain ⟨k, isThird, isUnit⟩ := Option.bind_eq_some_iff.mp isUnit
  obtain ⟨l, isFourth, isUnit⟩ := Option.bind_eq_some_iff.mp isUnit
  exact ⟨i, j, k, l, isFirst, isSecond, isThird, isFourth, (Option.some.inj isUnit).symm⟩

/-- A hexadecimal digit is less than sixteen. -/
theorem lt_of_hexValue? {digit : Nat} (isValue : Json.hexValue? c = some digit) : digit < 16 := by
  simp only [Json.hexValue?, Char.le_def, UInt32.le_iff_toNat_le] at isValue
  split_ifs at isValue with isDecimal isLower isUpper
  · cases isValue
    have atMost : c.toNat ≤ 57 := isDecimal.2
    simp only [show '0'.toNat = 48 from rfl]
    omega
  · cases isValue
    have atMost : c.toNat ≤ 102 := isLower.2
    simp only [show 'a'.toNat = 97 from rfl]
    omega
  · cases isValue
    have atMost : c.toNat ≤ 70 := isUpper.2
    simp only [show 'A'.toNat = 65 from rfl]
    omega

/-- A hexadecimal digit ends no line. -/
theorem inLine_of_hexValue? {digit : Nat} (isValue : Json.hexValue? c = some digit) :
    isLineEnd c = false := by
  rw [Bool.eq_false_iff]
  intro isEnd
  simp only [isLineEnd, Bool.or_eq_true, beq_iff_eq] at isEnd
  rcases isEnd with (((rfl | rfl) | rfl) | rfl) | rfl
  all_goals cases isValue

/-- A hexadecimal digit is read behind those before it. -/
theorem hexEscape?_digit {digit : Nat} (isValue : Json.hexValue? c = some digit)
    (text : List Char) (digits value : Nat) :
    hexEscape? text (digits + 2) value (place line column (c :: rest)) =
      hexEscape? text (digits + 1) (value * 16 + digit) (place line (column + 1) rest) := by
  rw [place_cons (inLine_of_hexValue? isValue), hexEscape?.eq_def]
  simp [isValue]

/-- The last one makes the character. -/
theorem hexEscape?_last {digit : Nat} (isValue : Json.hexValue? c = some digit)
    (text : List Char) (value : Nat) (isValid : (value * 16 + digit).isValidChar) :
    hexEscape? text 1 value (place line column (c :: rest)) =
      doubleQuoted? (Char.ofNat (value * 16 + digit) :: text) {}
        (place line (column + 1) rest) := by
  rw [place_cons (inLine_of_hexValue? isValue), hexEscape?.eq_def]
  simp [isValue, isValid]

/-- A backslash is read with the character behind it. -/
theorem doubleQuoted?_backslash (inside : 0 < column) (inLine : isLineEnd c = false)
    (text : List Char) (gap : Gap) :
    doubleQuoted? text gap (place line column ('\\' :: c :: rest)) =
      match namedEscape? c, escapeLength? c with
      | some character, _ =>
          doubleQuoted? (character :: gap.after text) {} (place line (column + 2) rest)
      | none, some digits => hexEscape? (gap.after text) digits 0 (place line (column + 2) rest)
      | none, none => none := by
  have isBackslash : isLineEnd '\\' = false := rfl
  rw [place_cons isBackslash, place_cons inLine, doubleQuoted?.eq_def]
  simp only [atDocumentMark_of_column inside, isBreak_of_inLine isBackslash,
    isBreak_of_inLine inLine]
  rfl

/-- A character of a string is read as it is spelled. -/
theorem doubleQuoted?_char {spelled : List Char} (isChar : SpellsChar spelled c) {gap : Gap}
    (unbroken : gap.isBroken = false) (before : List Char) (inside : 0 < column) :
    ∃ gap' before', gap'.isBroken = false ∧ gap'.after before' = c :: gap.after before ∧
      doubleQuoted? before gap (place line column (spelled ++ rest)) =
        doubleQuoted? before' gap' (place line (column + spelled.length) rest) := by
  cases isChar with
  | plain noQuote noBackslash visible inLine =>
      rw [List.singleton_append, place_cons inLine, doubleQuoted?.eq_def]
      simp only [atDocumentMark_of_column inside, isBreak_of_inLine inLine, isBlank_eq, noQuote,
        noBackslash, Bool.false_eq_true, if_false]
      have noTab : (c == '\t') = false := by
        refine beq_false_of_ne ?_
        rintro rfl
        exact absurd visible (by decide)
      rw [noTab, Bool.or_false]
      by_cases isSpace : c = ' '
      · refine ⟨gap.addBlank c, before, ?_, ?_, ?_⟩
        · rw [Gap.addBlank, unbroken]
          exact unbroken
        · rw [after_of_unbroken unbroken, Gap.addBlank, unbroken]
          have stillUnbroken : Gap.isBroken { gap with blanks := c :: gap.blanks } = false :=
            unbroken
          exact after_of_unbroken stillUnbroken before
        · rw [isSpace]
          rfl
      · refine ⟨{}, c :: gap.after before, rfl, rfl, ?_⟩
        rw [if_neg (by simpa using isSpace)]
        rfl
  | @short letter _ isEscape =>
      obtain ⟨isNamed, inLine⟩ := namedEscape?_of_unescape? isEscape
      refine ⟨{}, c :: gap.after before, rfl, rfl, ?_⟩
      rw [List.cons_append, List.singleton_append, doubleQuoted?_backslash inside inLine, isNamed]
      rfl
  | @unit a b c d n isUnit noSurrogate =>
      obtain ⟨i, j, k, l, isFirst, isSecond, isThird, isFourth, rfl⟩ :=
        hexValues_of_codeUnit? isUnit
      refine ⟨{}, Char.ofNat (((i * 16 + j) * 16 + k) * 16 + l) :: gap.after before, rfl, rfl, ?_⟩
      have isValid : (((i * 16 + j) * 16 + k) * 16 + l).isValidChar := by
        have := lt_of_hexValue? isFirst
        have := lt_of_hexValue? isSecond
        have := lt_of_hexValue? isThird
        have := lt_of_hexValue? isFourth
        unfold Nat.isValidChar
        omega
      simp only [List.cons_append, List.nil_append]
      rw [doubleQuoted?_backslash inside rfl]
      simp only [show namedEscape? 'u' = none from rfl, show escapeLength? 'u' = some 4 from rfl]
      rw [hexEscape?_digit isFirst, hexEscape?_digit isSecond, hexEscape?_digit isThird,
        hexEscape?_last isFourth _ _ (by simpa using isValid), Nat.zero_mul, Nat.zero_add]
      rfl

/-- A string is read up to its closing quote. -/
theorem doubleQuoted?_text {spelled text : List Char} (isText : SpellsText spelled text) {gap : Gap}
    (unbroken : gap.isBroken = false) (before : List Char) (inside : 0 < column) :
    doubleQuoted? before gap (place line column (spelled ++ '"' :: rest)) =
      some (String.ofList ((gap.after before).reverse ++ text),
        place line (column + spelled.length + 1) rest) := by
  induction isText generalizing gap before column with
  | nil =>
      rw [List.nil_append, place_cons rfl, doubleQuoted?.eq_def]
      simp only [atDocumentMark_of_column inside, List.append_nil]
      rfl
  | cons first _ ih =>
      rw [List.append_assoc]
      obtain ⟨gap', before', unbroken', isAfter, isRead⟩ :=
        doubleQuoted?_char first unbroken before inside
      rw [isRead, ih unbroken' before' (Nat.add_pos_left inside _), isAfter, List.reverse_cons,
        List.append_assoc, List.length_append, Nat.add_assoc column]
      rfl

/-- What follows a word and the gap behind it: nothing, or in a flow collection a comma or a closing
bracket. -/
def EndsWord (inFlow : Bool) (rest : List Char) : Prop :=
  ∀ c ∈ rest.head?, inFlow = true ∧ (c = ',' ∨ c = ']' ∨ c = '}')

/-- A letter of a word ends no line. -/
theorem inLine_of_isLetter (isLetter : IsLetter c) : isLineEnd c = false := by
  rw [Bool.eq_false_iff]
  intro isEnd
  simp only [isLineEnd, Bool.or_eq_true, beq_iff_eq] at isEnd
  rcases isEnd with (((isEnd | isEnd) | isEnd) | isEnd) | isEnd
  all_goals exact isLetter.ne (by decide) isEnd

/-- The letters of a word are collected. -/
theorem plainScalar?_letters (inFlow : Bool) {word : List Char} (isWord : ∀ c ∈ word, IsLetter c)
    (collected : List Char) :
    plainScalar? inFlow 0 collected {} (place line column (word ++ rest)) =
      plainScalar? inFlow 0 (word.reverse ++ collected) {}
        (place line (column + word.length) rest) := by
  induction word generalizing collected column with
  | nil => rfl
  | cons c word ih =>
      obtain ⟨isLetter, areLetters⟩ := List.forall_mem_cons.mp isWord
      have inLine := inLine_of_isLetter isLetter
      have noBlank : c ≠ ' ' ∧ c ≠ '\t' := ⟨isLetter.ne (by decide), isLetter.ne (by decide)⟩
      have noColon : c ≠ ':' := isLetter.ne (by decide)
      have noMark : c ≠ ',' ∧ c ≠ '[' ∧ c ≠ ']' ∧ c ≠ '{' ∧ c ≠ '}' :=
        ⟨isLetter.ne (by decide), isLetter.ne (by decide), isLetter.ne (by decide),
          isLetter.ne (by decide), isLetter.ne (by decide)⟩
      have isNext : plainScalar? inFlow 0 collected {} (place line column (c :: (word ++ rest))) =
          plainScalar? inFlow 0 (c :: collected) {} (place line (column + 1) (word ++ rest)) := by
        rw [place_cons inLine, plainScalar?]
        simp [isBlank_eq, isBreak_of_inLine inLine, noBlank, noColon, noMark, Gap.isEmpty,
          Gap.isBroken, Gap.after, Gap.folded]
      rw [List.cons_append, isNext, ih areLetters, List.reverse_cons, List.append_assoc,
        List.length_cons, Nat.add_right_comm, Nat.add_assoc]
      rfl

/-- A blank behind a word is passed over. -/
theorem plainScalar?_blank (inFlow : Bool) (isBlank : c = ' ' ∨ c = '\t') (collected : List Char)
    (gap : Gap) (later : List Glyph) :
    plainScalar? inFlow 0 collected gap (⟨c, line, column⟩ :: later) =
      plainScalar? inFlow 0 collected (gap.addBlank c) later := by
  rw [plainScalar?]
  rcases isBlank with rfl | rfl
  · simp [isBlank_eq]
  · simp [isBlank_eq]

/-- So is a break. -/
theorem plainScalar?_break (inFlow : Bool) (collected : List Char) (gap : Gap)
    (later : List Glyph) :
    plainScalar? inFlow 0 collected gap (⟨'\n', line, column⟩ :: later) =
      plainScalar? inFlow 0 collected (gap.addBreak '\n') later :=
  rfl

/-- A word ends where it ends. -/
theorem plainScalar?_of_ends {inFlow : Bool} (ends : EndsWord inFlow rest) (collected : List Char)
    (gap : Gap) :
    plainScalar? inFlow 0 collected gap (place line column rest) =
      some ⟨String.ofList collected.reverse, gap.isBroken, place line column rest⟩ := by
  cases rest with
  | nil => rfl
  | cons c rest =>
      obtain ⟨rfl, isMark⟩ := ends c rfl
      rcases isMark with rfl | rfl | rfl
      all_goals
        rw [place_cons rfl, plainScalar?]
        simp [isBlank_eq, isBreak_of_inLine, isLineEnd, atDocumentMark, atLineMark_of_ne]

/-- What ends a word is no line feed. -/
theorem EndsWord.noFeed {inFlow : Bool} (ends : EndsWord inFlow rest) :
    rest.head? ≠ some '\n' := by
  intro isFeed
  have noMark := (ends '\n' (by rw [isFeed]; rfl)).2
  revert noMark
  decide

/-- A word is read with the gap behind it. -/
theorem plainScalar?_gap {inFlow : Bool} {gap : List Char} {glyphs : List Glyph}
    (isGap : PlacesGap rest gap glyphs) (ends : EndsWord inFlow rest) (collected : List Char)
    (passed : Gap) :
    ∃ broken endLine endColumn,
      plainScalar? inFlow 0 collected passed glyphs =
        some ⟨String.ofList collected.reverse, broken, place endLine endColumn rest⟩ := by
  induction isGap generalizing passed with
  | nil line column => exact ⟨_, line, column, plainScalar?_of_ends ends collected passed⟩
  | blank isBlank _ ih =>
      rw [plainScalar?_blank _ isBlank]
      exact ih _
  | lineBreak _ _ ih | returnFeed _ ih =>
      rw [plainScalar?_break]
      exact ih _

/-- A word is read up to what follows the gap behind it. -/
theorem plainScalar?_word {inFlow : Bool} {word gap : List Char} (line column : Nat)
    (isWord : ∀ c ∈ word, IsLetter c) (isGap : ∀ c ∈ gap, Token.isBlank c = true)
    (ends : EndsWord inFlow rest) :
    ∃ broken endLine endColumn,
      plainScalar? inFlow 0 [] {} (place line column (word ++ (gap ++ rest))) =
        some ⟨String.ofList word, broken, place endLine endColumn rest⟩ := by
  obtain ⟨broken, endLine, endColumn, isRead⟩ :=
    plainScalar?_gap (placesGap line (column + word.length) isGap ends.noFeed) ends
      (word.reverse ++ []) {}
  refine ⟨broken, endLine, endColumn, ?_⟩
  rw [plainScalar?_letters inFlow isWord, isRead, List.append_nil, List.reverse_reverse]

end MenuPlan.Portable

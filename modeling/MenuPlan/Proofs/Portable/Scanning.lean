/-
# Scanning portable texts

The scanner of YAML cuts a portable text into the translated tokens, one step for each lexeme.
Between two lexemes the scanner stands as the reader of JSON does (`Stands`): inside as many
collections, allowed to meet a key where that reader expects a name, and with the tokens of what has
been read. Behind a name it does not have the token for the key yet, but a candidate that has not
become stale, and the colon puts that token in its place.
-/

import MenuPlan.Proofs.Portable.Scanner
import MenuPlan.Proofs.Portable.Tokens

namespace MenuPlan.Portable

open Yaml

/-- A character that neither belongs to a gap nor marks the order of bytes. -/
def IsStart (c : Char) : Prop :=
  isLineEnd c = false ∧ c ≠ ' ' ∧ c ≠ '\t' ∧ c ≠ '#' ∧ c ≠ '\uFEFF'

/-- A token begins with such a character. -/
theorem Spells.exists_eq_cons {spelled : List Char} {token : Json.Token}
    (isSpelled : Spells spelled token) : ∃ c more, spelled = c :: more ∧ IsStart c := by
  cases isSpelled with
  | @punctuation c _ isToken =>
      refine ⟨c, [], rfl, ?_⟩
      unfold Json.Token.ofPunctuation? at isToken
      split at isToken
      case h_7 => cases isToken
      all_goals exact ⟨rfl, by decide, by decide, by decide, by decide⟩
  | string _ => exact ⟨'"', _, rfl, rfl, by decide, by decide, by decide, by decide⟩
  | word isWord =>
      obtain ⟨c, more, isCons, -⟩ := isWord.exists_eq_cons
      have isLetter := isWord.isLetter c (isCons ▸ List.mem_cons_self)
      exact ⟨c, more, isCons, inLine_of_isLetter isLetter, isLetter.ne (by decide),
        isLetter.ne (by decide), isLetter.ne (by decide), isLetter.ne (by decide)⟩

/-- The characters of the tokens that have only one spelling. -/
def mark? : Json.Token → Option Char
  | .openArray => some '['
  | .closeArray => some ']'
  | .openObject => some '{'
  | .closeObject => some '}'
  | .comma => some ','
  | .colon => some ':'
  | .string _ | .word _ => none

/-- These tokens are the punctuation. -/
theorem mark?_of_ofPunctuation? {token : Json.Token} {c : Char}
    (isToken : Json.Token.ofPunctuation? c = some token) : mark? token = some c := by
  unfold Json.Token.ofPunctuation? at isToken
  split at isToken
  case h_7 => cases isToken
  all_goals
    cases isToken
    rfl

/-- They are spelled by their character. -/
theorem Spells.eq_mark {spelled : List Char} {token : Json.Token} {c : Char}
    (isSpelled : Spells spelled token) (isMark : mark? token = some c) : spelled = [c] := by
  cases isSpelled with
  | punctuation isToken =>
      rw [mark?_of_ofPunctuation? isToken] at isMark
      cases isMark
      rfl
  | string _ | word _ => cases isMark

/-- A string is spelled between quotes. -/
theorem Spells.exists_spellsText {spelled : List Char} {text : String}
    (isSpelled : Spells spelled (.string text)) :
    ∃ inner characters, spelled = '"' :: (inner ++ ['"']) ∧ text = String.ofList characters ∧
      SpellsText inner characters := by
  cases isSpelled with
  | punctuation isToken => cases mark?_of_ofPunctuation? isToken
  | @string inner characters isText => exact ⟨inner, characters, rfl, rfl, isText⟩

/-- A word is spelled as it is. -/
theorem Spells.spellsWord {spelled text : List Char} (isSpelled : Spells spelled (.word text)) :
    spelled = text ∧ SpellsWord text := by
  cases isSpelled with
  | punctuation isToken => cases mark?_of_ofPunctuation? isToken
  | word isWord => exact ⟨rfl, isWord⟩

/-- They end a gap. -/
theorem isStart_of_mark? {token : Json.Token} {c : Char} (isMark : mark? token = some c) :
    IsStart c := by
  cases token with
  | string | word => cases isMark
  | openArray | closeArray | openObject | closeObject | comma | colon =>
      cases isMark
      exact ⟨rfl, by decide, by decide, by decide, by decide⟩

/-- The scanner stands before the rest of the text as the reader of JSON does. -/
inductive Stands : Json.Reading → List Yaml.Token → Scanner → List Char → Prop where
  | between {reading : Json.Reading} {tokens : List Yaml.Token} {s : Scanner} {gap text : List Char}
      (line column : Nat) (steady : Steady (depthOf reading) tokens s)
      (allowed : expectsName reading = true → s.keyAllowed = true)
      (noColon : expectsColon reading = false) (isGap : ∀ c ∈ gap, Json.Token.isBlank c = true)
      (fits : TabsFit s.inFlow s.keyAllowed gap)
      (isRest : s.rest = place line column (gap ++ text)) :
      Stands reading tokens s text
  | behindName {done : Fields Data} {name : String} {around : List Json.Frame} {scalar : Yaml.Token}
      {tokens : List Yaml.Token} {s : Scanner} {gap text : List Char} {line column width : Nat}
      (steady : Steady (around.length + 1) (scalar :: tokens) s)
      (isCandidate : s.candidate = some ⟨line, column, tokens.length, false⟩)
      (inLine : ∀ c ∈ gap, c = ' ' ∨ c = '\t') (close : width + gap.length ≤ 1024)
      (isRest : s.rest = place line (column + width) (gap ++ text)) :
      Stands (.beforeColon done name around) (scalar :: .key :: tokens) s text

variable {reading next : Json.Reading} {tokens : List Yaml.Token} {s : Scanner}
  {lexemes : List Lexeme}

/-- Between lexemes a step skips the gap and reads the next token. -/
theorem Stands.begin {c : Char} {text : List Char} (stands : Stands reading tokens s (c :: text))
    (noColon : expectsColon reading = false) (isStart : IsStart c) (steps : Nat) :
    ∃ between line column, Steady (depthOf reading) tokens between ∧
      (expectsName reading = true → between.keyAllowed = true) ∧
      Scanner.run? (steps + 1) s =
        (between.token? ⟨c, line, column⟩ (place line (column + 1) text)).bind
          (Scanner.run? steps) := by
  cases stands with
  | between line column steady allowed _ isGap fits isRest =>
      obtain ⟨inLine, noSpace, noTab, noComment, -⟩ := isStart
      have ends : EndsGap (c :: text) := by
        intro first isFirst
        cases isFirst
        exact ⟨inLine, noSpace, noTab, noComment⟩
      obtain ⟨keyAllowed, endLine, endColumn, isSkipped, keeps⟩ :=
        skipGap_gap s.inFlow s.keyAllowed (placesGap line column isGap ends.noFeed) fits ends
      rw [← isRest, place_cons inLine] at isSkipped
      exact ⟨_, endLine, endColumn, steady.afterStale _ keyAllowed,
        fun isName => keeps (allowed isName), steady.run?_succ isSkipped steps⟩
  | behindName => cases noColon

/-- Behind a token the scanner stands before the gap of its lexeme. -/
theorem Stands.of_gap {gap text : List Char} (line column : Nat)
    (steady : Steady (depthOf reading) tokens s)
    (allowed : expectsName reading = true → s.keyAllowed = true)
    (noColon : expectsColon reading = false) (isGap : ∀ c ∈ gap, Json.Token.isBlank c = true)
    (isInside : depthOf reading = 0 → s.keyAllowed = false ∧ TabsInLine gap)
    (isRest : s.rest = place line column (gap ++ text)) : Stands reading tokens s text := by
  refine .between line column steady allowed noColon isGap ?_ isRest
  rw [steady.inFlow]
  cases isDepth : depthOf reading with
  | zero =>
      obtain ⟨noKey, inLine⟩ := isInside isDepth
      rw [noKey]
      exact tabsFit_of_tabsInLine _ inLine
  | succ depth => exact tabsFit_inFlow _ _

/-- A step that reads a token of one character. -/
theorem Stands.mark {spelled gap text : List Char} {spelledToken : Json.Token} {c : Char}
    {token : Yaml.Token} {keyAllowed : Bool}
    (stands : Stands reading tokens s (spelled ++ (gap ++ text)))
    (isSpelled : Spells spelled spelledToken) (isMark : mark? spelledToken = some c)
    (noColon : expectsColon reading = false)
    (reads : ∀ between line column more, Steady (depthOf reading) tokens between →
      ∃ later, between.token? ⟨c, line, column⟩ more = some later ∧
        Steady (depthOf next) (token :: tokens) later ∧ later.rest = more ∧
        later.keyAllowed = keyAllowed)
    (isGap : ∀ c ∈ gap, Json.Token.isBlank c = true)
    (isInside : depthOf next = 0 → keyAllowed = false ∧ TabsInLine gap)
    (allowed : expectsName next = true → keyAllowed = true)
    (noColonNext : expectsColon next = false) (steps : Nat) :
    ∃ later, Scanner.run? (steps + 1) s = Scanner.run? steps later ∧
      Stands next (token :: tokens) later text := by
  rw [isSpelled.eq_mark isMark, List.singleton_append] at stands
  obtain ⟨between, line, column, steady, -, isStep⟩ :=
    stands.begin noColon (isStart_of_mark? isMark) steps
  obtain ⟨later, isRead, steady, isRest, isAllowed⟩ :=
    reads between line column (place line (column + 1) (gap ++ text)) steady
  rw [isRead] at isStep
  refine ⟨later, isStep, .of_gap line (column + 1) steady ?_ noColonNext isGap ?_ isRest⟩
  · rwa [isAllowed]
  · rwa [isAllowed]

/-- A step that opens a collection. -/
theorem Stands.opening {spelled gap text : List Char} {spelledToken : Json.Token} {c : Char}
    {token : Yaml.Token} {around : List Json.Frame}
    (stands : Stands reading tokens s (spelled ++ (gap ++ text)))
    (isSpelled : Spells spelled spelledToken) (isMark : mark? spelledToken = some c)
    (atValue : AtValue reading around)
    (opens : ∀ (between : Scanner) (line column : Nat) (more : List Glyph),
      between.token? ⟨c, line, column⟩ more = between.openFlow? ⟨c, line, column⟩ token more)
    (isGap : ∀ c ∈ gap, Json.Token.isBlank c = true) (isDepth : depthOf next = around.length + 1)
    (noColonNext : expectsColon next = false) (steps : Nat) :
    ∃ later, Scanner.run? (steps + 1) s = Scanner.run? steps later ∧
      Stands next (token :: tokens) later text := by
  obtain ⟨isDepthBefore, -, noColon⟩ := atValue.isPlace
  refine stands.mark isSpelled isMark noColon ?_ isGap ?_ (fun _ => rfl) noColonNext steps
  · intro between line column more steady
    rw [isDepthBefore] at steady
    rw [opens, isDepth]
    exact steady.openFlow? _ token more
  · intro isOutside
    rw [isDepth] at isOutside
    cases isOutside

/-- A step that closes a collection. -/
theorem Stands.closing {spelled gap text : List Char} {spelledToken : Json.Token} {c : Char}
    {token : Yaml.Token} {around : List Json.Frame} (value : Data)
    (stands : Stands reading tokens s (spelled ++ (gap ++ text)))
    (isSpelled : Spells spelled spelledToken) (isMark : mark? spelledToken = some c)
    (isPlace : depthOf reading = around.length + 1 ∧ expectsColon reading = false)
    (closes : ∀ (between : Scanner) (line column : Nat) (more : List Glyph),
      between.token? ⟨c, line, column⟩ more = between.closeFlow? token more)
    (isGap : ∀ c ∈ gap, Json.Token.isBlank c = true)
    (inLine : depthOf (.deliver value around) = 0 → TabsInLine gap) (steps : Nat) :
    ∃ later, Scanner.run? (steps + 1) s = Scanner.run? steps later ∧
      Stands (.deliver value around) (token :: tokens) later text := by
  refine stands.mark isSpelled isMark isPlace.2 ?_ isGap
    (fun isOutside => ⟨rfl, inLine isOutside⟩) ?_ (expectsColon_deliver _ _) steps
  · intro between line column more steady
    rw [isPlace.1] at steady
    rw [closes, depthOf_deliver]
    exact steady.closeFlow? token more
  · intro isName
    rw [expectsName_deliver] at isName
    cases isName

/-- A step that reads a string. -/
theorem Stands.string {spelled gap text : List Char} {content : String}
    (stands : Stands reading tokens s (spelled ++ (gap ++ text)))
    (isSpelled : Spells spelled (.string content)) (noColon : expectsColon reading = false)
    (steps : Nat) :
    ∃ later line column,
      Scanner.run? (steps + 1) s = Scanner.run? steps later ∧
      Steady (depthOf reading) (.scalar content false :: tokens) later ∧
      later.rest = place line (column + spelled.length) (gap ++ text) ∧
      later.keyAllowed = false ∧
      (expectsName reading = true →
        later.candidate = some ⟨line, column, tokens.length, false⟩) := by
  obtain ⟨inner, characters, rfl, rfl, isText⟩ := isSpelled.exists_spellsText
  rw [List.cons_append, List.append_assoc, List.singleton_append] at stands
  have isStart : IsStart '"' := ⟨rfl, by decide, by decide, by decide, by decide⟩
  obtain ⟨between, line, column, steady, allowed, isStep⟩ := stands.begin noColon isStart steps
  obtain ⟨later, isRead, steady, isRest, isAllowed, isCandidate⟩ :=
    steady.keyToken? ⟨'"', line, column⟩ (.scalar (String.ofList characters) false)
      (place line (column + 1 + inner.length + 1) (gap ++ text))
  refine ⟨later, line, column, ?_, steady, ?_, isAllowed,
    fun isName => isCandidate (allowed isName)⟩
  · have unbroken : Gap.isBroken {} = false := rfl
    have isQuoted : doubleQuoted? [] {}
        (place line (column + 1) (inner ++ '"' :: (gap ++ text))) = some _ :=
      doubleQuoted?_text isText unbroken [] (Nat.succ_pos column)
    rw [isStep, token?_quote, isQuoted]
    exact congrArg (Option.bind · (Scanner.run? steps)) isRead
  · rw [isRest, List.length_cons, List.length_append, List.length_singleton]
    congr 1
    omega

/-- A step that reads a word. -/
theorem Stands.word {spelled word gap text : List Char}
    (stands : Stands reading tokens s (spelled ++ (gap ++ text)))
    (isSpelled : Spells spelled (.word word)) (noColon : expectsColon reading = false)
    (isGap : ∀ c ∈ gap, Json.Token.isBlank c = true)
    (ends : EndsWord (decide (0 < depthOf reading)) text) (steps : Nat) :
    ∃ later line column,
      Scanner.run? (steps + 1) s = Scanner.run? steps later ∧
      Steady (depthOf reading) (.scalar (String.ofList word) true :: tokens) later ∧
      later.rest = place line column text := by
  obtain ⟨rfl, isWord⟩ := isSpelled.spellsWord
  obtain ⟨c, more, rfl, isStart⟩ := isSpelled.exists_eq_cons
  obtain ⟨between, line, column, steady, -, isStep⟩ := stands.begin noColon isStart steps
  rw [← steady.inFlow] at ends
  obtain ⟨later, endLine, endColumn, isRead, steady, isRest⟩ :=
    steady.plain? ⟨c, line, column⟩ line column isWord.isLetter isGap ends
  rw [List.cons_append] at stands isRead
  refine ⟨later, endLine, endColumn, ?_, steady, isRest⟩
  rw [isStep, List.append_eq, token?_word isWord, isRead]
  rfl

/-- A step that reads the colon behind a name. -/
theorem Stands.colon {done : Fields Data} {name : String} {around : List Json.Frame}
    {spelled gap text : List Char}
    (stands : Stands (.beforeColon done name around) tokens s (spelled ++ (gap ++ text)))
    (isSpelled : Spells spelled .colon) (isGap : ∀ c ∈ gap, Json.Token.isBlank c = true)
    (steps : Nat) :
    ∃ later, Scanner.run? (steps + 1) s = Scanner.run? steps later ∧
      Stands (.beforeValue (.members done name :: around)) (.value :: tokens) later text := by
  rw [isSpelled.eq_mark rfl, List.singleton_append] at stands
  cases stands with
  | between _ _ _ _ noColon => cases noColon
  | @behindName _ _ _ scalar older _ nameGap _ line column width steady isCandidate inLine close
      isRest =>
      have ends : EndsGap (':' :: (gap ++ text)) := by
        intro c isColon
        cases isColon
        exact ⟨rfl, by decide, by decide, by decide⟩
      have inFlow : s.inFlow = true := by
        rw [steady.inFlow]
        exact decide_eq_true (Nat.succ_pos _)
      have isSkipped := skipGap_place_inLine inLine ends s.keyAllowed line (column + width)
      rw [← isRest, ← inFlow, place_cons rfl] at isSkipped
      let colon : Glyph := ⟨':', line, column + width + nameGap.length⟩
      have notStale : dropStale colon s.candidate = s.candidate := by
        have isNear : Scanner.isStale colon ⟨line, column, older.length, false⟩ = false := by
          have close : column + width + nameGap.length ≤ column + 1024 := by omega
          simpa [Scanner.isStale, colon] using close
        rw [dropStale, isCandidate, Option.any_some, isNear]
        rfl
      have steadyBetween := steady.afterStale colon s.keyAllowed
      obtain ⟨later, isRead, steadyLater, isRest⟩ :=
        steadyBetween.value? colon (place line (column + width + nameGap.length + 1) (gap ++ text))
          (notStale.trans isCandidate)
      refine ⟨later, ?_, ?_⟩
      · rw [steady.run?_succ isSkipped, token?_colon, isRead]
        · rfl
        · rw [steadyBetween.inFlow]
          exact decide_eq_true (Nat.succ_pos _)
      · refine .of_gap _ _ steadyLater ?_ rfl isGap ?_ isRest
        · intro isName
          cases isName
        · intro isOutside
          cases isOutside

/-- When no collection is open behind a token, the value of the text has been read. -/
theorem Moves.eq_finished {token : Json.Token} (moves : Moves reading token next)
    (isOutside : depthOf next = 0) : ∃ value, next = .finished value := by
  cases moves with
  | openArray | openObject | nextMember | name => cases isOutside
  | nextItem | colon => cases isOutside
  | @string _ around text _ =>
      rw [depthOf_deliver, List.length_eq_zero_iff] at isOutside
      exact ⟨_, by rw [isOutside]; rfl⟩
  | word _ _ | closeArray _ | closeObject _ =>
      rw [depthOf_deliver, List.length_eq_zero_iff] at isOutside
      exact ⟨_, by rw [isOutside]; rfl⟩

/-- Nothing can be read behind the value of the text. -/
theorem eq_nil_of_finished {tokens : List Json.Token} {value last : Data}
    (completes : tokens.foldlM Json.Reading.step (.finished value) = some (.finished last)) :
    tokens = [] := by
  cases tokens with
  | nil => rfl
  | cons token rest => cases completes

/-- Behind a value comes the end of the text, or a comma or a closing bracket. -/
theorem endsWord_of_completes {value last : Data} {around : List Json.Frame}
    (completes : (lexemes.map Lexeme.token).foldlM Json.Reading.step (.deliver value around) =
      some (.finished last)) : EndsWord (decide (0 < around.length)) (textOf lexemes) := by
  intro c isHead
  cases lexemes with
  | nil => cases isHead
  | cons lexeme rest =>
      rw [List.map_cons, List.foldlM_cons] at completes
      obtain ⟨next, isStep, -⟩ := Option.bind_eq_some_iff.mp completes
      cases around with
      | nil => cases isStep
      | cons frame around =>
          refine ⟨rfl, ?_⟩
          have isMark : ∃ mark, mark? lexeme.token = some mark ∧
              (mark = ',' ∨ mark = ']' ∨ mark = '}') := by
            generalize lexeme.token = token at isStep
            cases frame <;> cases token <;> cases isStep
            all_goals exact ⟨_, rfl, by decide⟩
          obtain ⟨mark, isMark, isOne⟩ := isMark
          rw [textOf_cons, lexeme.isSpelled.eq_mark isMark] at isHead
          cases isHead
          exact isOne

/-- Behind a name comes its colon, and so in its line and not too far away. -/
theorem isClose_of_completes {lexeme : Lexeme} {value : Data}
    (precede : (lexeme :: lexemes).IsChain Lexeme.Precedes) (toColon : expectsColon next = true)
    (completes :
      (lexemes.map Lexeme.token).foldlM Json.Reading.step next = some (.finished value)) :
    (∀ c ∈ lexeme.gap, c = ' ' ∨ c = '\t') ∧ lexeme.spelled.length + lexeme.gap.length ≤ 1024 := by
  cases lexemes with
  | nil =>
      cases completes
      cases toColon
  | cons second rest =>
      rw [List.map_cons, List.foldlM_cons] at completes
      obtain ⟨_, isStep, -⟩ := Option.bind_eq_some_iff.mp completes
      have isColon : second.token = .colon := by
        generalize second.token = token at isStep
        cases moves_of_step isStep with
        | colon => rfl
        | openArray atValue | openObject atValue | string _ atValue | word atValue =>
            rw [atValue.isPlace.2.2] at toColon
            cases toColon
        | closeArray atEnd | closeObject atEnd =>
            rw [atEnd.isPlace.2] at toColon
            cases toColon
        | name _ atName =>
            rw [atName.isPlace.2.2] at toColon
            cases toColon
        | nextItem | nextMember => cases toColon
      have precedes := (List.isChain_cons_cons.mp precede).1
      exact ⟨precedes.inLine isColon, precedes.close isColon⟩

/-- A lexeme is read in one step. -/
theorem Stands.step {lexeme : Lexeme} {value : Data}
    (stands : Stands reading tokens s (textOf (lexeme :: lexemes)))
    (precede : (lexeme :: lexemes).IsChain Lexeme.Precedes)
    (isTrailing : ∀ last ∈ (lexeme :: lexemes).getLast?, ¬ IsWord last.token → TabsInLine last.gap)
    (isStep : reading.step lexeme.token = some next)
    (completes :
      (lexemes.map Lexeme.token).foldlM Json.Reading.step next = some (.finished value))
    (steps : Nat) :
    ∃ later, Scanner.run? (steps + 1) s = Scanner.run? steps later ∧
      Stands next ((translate (expectsName reading) lexeme.token).reverse ++ tokens) later
        (textOf lexemes) := by
  have moves := moves_of_step isStep
  -- Only the last gap is outside all collections.
  have inLine : ¬ IsWord lexeme.token → depthOf next = 0 → TabsInLine lexeme.gap := by
    intro noWord isOutside
    obtain ⟨last, rfl⟩ := moves.eq_finished isOutside
    have isLast := eq_nil_of_finished completes
    rw [List.map_eq_nil_iff] at isLast
    subst isLast
    exact isTrailing lexeme rfl noWord
  have toColon : expectsColon next = true →
      (∀ c ∈ lexeme.gap, c = ' ' ∨ c = '\t') ∧
        lexeme.spelled.length + lexeme.gap.length ≤ 1024 :=
    fun toColon => isClose_of_completes precede toColon completes
  obtain ⟨spelled, token, gap, isSpelled, isGap⟩ := lexeme
  rw [textOf_cons] at stands
  simp only at *
  cases moves with
  | openArray atValue _ =>
      exact stands.opening isSpelled rfl atValue (fun _ _ _ _ => token?_openArray) isGap rfl rfl
        steps
  | openObject atValue _ =>
      exact stands.opening isSpelled rfl atValue (fun _ _ _ _ => token?_openObject) isGap rfl rfl
        steps
  | closeArray atEnd =>
      exact stands.closing _ isSpelled rfl atEnd.isPlace (fun _ _ _ _ => token?_closeArray) isGap
        (inLine (by rintro ⟨_, ⟨⟩⟩)) steps
  | closeObject atEnd =>
      exact stands.closing _ isSpelled rfl atEnd.isPlace (fun _ _ _ _ => token?_closeObject) isGap
        (inLine (by rintro ⟨_, ⟨⟩⟩)) steps
  | nextItem done around | nextMember done around =>
      refine stands.mark isSpelled rfl rfl ?_ isGap ?_ (fun _ => rfl) rfl steps
      · intro between line column more steady
        rw [token?_comma]
        exact steady.plainToken? _ more true
      · intro isOutside
        cases isOutside
  | colon done text around => exact stands.colon isSpelled isGap steps
  | @string _ around text atValue =>
      obtain ⟨isDepth, noName, noColon⟩ := atValue.isPlace
      obtain ⟨later, line, column, isRun, steady, isRest, noKey, -⟩ :=
        stands.string isSpelled noColon steps
      rw [isDepth] at steady
      rw [noName]
      refine ⟨later, isRun, .of_gap line _ ?_ ?_ (expectsColon_deliver _ _) isGap
        (fun isOutside => ⟨noKey, inLine (by rintro ⟨_, ⟨⟩⟩) isOutside⟩) isRest⟩
      · rw [depthOf_deliver]
        exact steady
      · rw [expectsName_deliver]
        intro isName
        cases isName
  | @word _ around text value atValue isScalar =>
      obtain ⟨isDepth, -, noColon⟩ := atValue.isPlace
      have ends := endsWord_of_completes completes
      rw [← isDepth] at ends
      obtain ⟨later, line, column, isRun, steady, isRest⟩ :=
        stands.word isSpelled noColon isGap ends steps
      rw [isDepth] at steady
      refine ⟨later, isRun, .between line column ?_ ?_ (expectsColon_deliver _ _)
        (List.forall_mem_nil _) trivial isRest⟩
      · rw [depthOf_deliver]
        exact steady
      · rw [expectsName_deliver]
        intro isName
        cases isName
  | @name _ done around text atName =>
      obtain ⟨isDepth, isName, noColon⟩ := atName.isPlace
      obtain ⟨later, line, column, isRun, steady, isRest, -, isCandidate⟩ :=
        stands.string isSpelled noColon steps
      obtain ⟨inLine, close⟩ := toColon rfl
      rw [isDepth] at steady
      rw [isName]
      exact ⟨later, isRun, .behindName steady (isCandidate isName) inLine close isRest⟩

/-- The rest of a portable text is cut into the translated tokens. -/
theorem Stands.run? {value : Data} {steps : Nat}
    (stands : Stands reading tokens s (textOf lexemes))
    (precede : lexemes.IsChain Lexeme.Precedes)
    (isTrailing : ∀ last ∈ lexemes.getLast?, ¬ IsWord last.token → TabsInLine last.gap)
    (completes :
      (lexemes.map Lexeme.token).foldlM Json.Reading.step reading = some (.finished value))
    (enough : lexemes.length < steps) :
    Scanner.run? steps s =
      some (tokens.reverse ++ translateAll reading (lexemes.map Lexeme.token)) := by
  induction lexemes generalizing reading tokens s steps with
  | nil =>
      obtain ⟨steps, rfl⟩ := Nat.exists_eq_add_one.mpr enough
      cases completes
      cases stands with
      | between line column steady _ _ isGap fits isRest =>
          have ends : EndsGap [] := fun _ isHead => by cases isHead
          obtain ⟨keyAllowed, _, _, isSkipped, -⟩ :=
            skipGap_gap s.inFlow s.keyAllowed (placesGap line column isGap ends.noFeed) fits ends
          rw [textOf_nil] at isRest
          rw [← isRest] at isSkipped
          exact steady.run?_end isSkipped steps
  | cons lexeme rest ih =>
      obtain ⟨steps, rfl⟩ := Nat.exists_eq_add_one.mpr (Nat.zero_lt_of_lt enough)
      rw [List.map_cons, List.foldlM_cons] at completes
      obtain ⟨next, isStep, completes⟩ := Option.bind_eq_some_iff.mp completes
      obtain ⟨later, isRun, stands⟩ := stands.step precede isTrailing isStep completes steps
      have isTrailingLater : ∀ last ∈ rest.getLast?, ¬ IsWord last.token → TabsInLine last.gap := by
        intro last isLast
        refine isTrailing last ?_
        rw [List.getLast?_cons, Option.mem_def.mp isLast]
        rfl
      rw [isRun, ih stands precede.tail isTrailingLater completes (Nat.lt_of_succ_lt_succ enough),
        List.map_cons, translateAll, isStep, Option.elim_some, List.reverse_append,
        List.reverse_reverse, List.append_assoc]

/-- A lexeme has a character that ends no line. -/
theorem length_le_countP (lexemes : List Lexeme) :
    lexemes.length ≤ (textOf lexemes).countP fun c => !isLineEnd c := by
  induction lexemes with
  | nil => exact Nat.le_refl 0
  | cons lexeme rest ih =>
      obtain ⟨c, more, isCons, isStart⟩ := lexeme.isSpelled.exists_eq_cons
      rw [textOf_cons, isCons, List.cons_append, List.countP_cons_of_pos (by rw [isStart.1]; rfl),
        List.countP_append, List.countP_append, List.length_cons]
      omega

/-- What stands before the first lexeme is a gap. -/
theorem IsSpelling.isGap {text : String} {leading : List Char}
    (isSpelling : IsSpelling text leading lexemes) :
    ∀ c ∈ leading, Json.Token.isBlank c = true := by
  intro c member
  rcases isSpelling.isLeading c member with rfl | rfl | rfl <;> rfl

/-- A portable text does not begin with a byte order mark. -/
theorem IsSpelling.head?_ne {text : String} {leading : List Char}
    (isSpelling : IsSpelling text leading lexemes) : text.toList.head? ≠ some '\uFEFF' := by
  rw [isSpelling.isText]
  intro isHead
  cases leading with
  | cons c leading =>
      cases isHead
      rcases isSpelling.isLeading _ List.mem_cons_self with isBlank | isBlank | isBlank
      all_goals revert isBlank; decide
  | nil =>
      cases lexemes with
      | nil => cases isHead
      | cons lexeme rest =>
          obtain ⟨c, more, isCons, isStart⟩ := lexeme.isSpelled.exists_eq_cons
          rw [List.nil_append, textOf_cons, isCons, List.cons_append, List.head?_cons,
            Option.some.injEq] at isHead
          exact isStart.2.2.2.2 isHead

/-- A portable text has the glyphs of all its characters. -/
theorem IsSpelling.glyphs? {text : String} {leading : List Char}
    (isSpelling : IsSpelling text leading lexemes) :
    Yaml.glyphs? text = some (place 0 0 text.toList) := by
  rw [Yaml.glyphs?]
  simp only [List.all_eq_true.mpr isSpelling.isPrintable, if_true]
  split
  · rename_i isMark
    exact absurd (head?_eq_of_place isMark) isSpelling.head?_ne
  · rfl

/-- A portable text has the translated tokens. -/
theorem IsSpelling.ofText? {text : String} {leading : List Char} {value : Data}
    (isSpelling : IsSpelling text leading lexemes)
    (completes : (lexemes.map Lexeme.token).foldlM Json.Reading.step (.beforeValue []) =
      some (.finished value)) :
    Yaml.Token.ofText? text =
      some (translateAll (.beforeValue []) (lexemes.map Lexeme.token)) := by
  have noTab : '\t' ∉ leading := by
    intro member
    rcases isSpelling.isLeading _ member with isBlank | isBlank | isBlank
    all_goals revert isBlank; decide
  have stands : Stands (.beforeValue []) [] { rest := place 0 0 text.toList } (textOf lexemes) :=
    .between 0 0 ⟨rfl, rfl, dispensable_none, List.forall_mem_nil _, rfl, rfl⟩ (fun _ => rfl) rfl
      isSpelling.isGap (tabsFit_of_noTab _ _ noTab) (by rw [isSpelling.isText])
  have enough : lexemes.length < (place 0 0 text.toList).length + 1 := by
    have atLeast := countP_le_length_place 0 0 text.toList
    rw [isSpelling.isText, List.countP_append] at atLeast
    rw [isSpelling.isText]
    have := length_le_countP lexemes
    omega
  rw [Yaml.Token.ofText?, isSpelling.glyphs?]
  exact stands.run? isSpelling.precede isSpelling.isTrailing completes enough

end MenuPlan.Portable

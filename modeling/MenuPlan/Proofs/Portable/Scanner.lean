/-
# Steps of the scanner of YAML

What a step of the scanner does with the characters of a portable text: it skips the gap, drops
stale candidates for keys, and reads one token. None of these steps meets a block collection, so
that no key is ever required (`Steady`), and nothing is refused.

The lemmas come in the order of a step, with one for each kind of token.
-/

import MenuPlan.Proofs.Portable.Places

namespace MenuPlan.Portable

open Yaml

/-- A candidate that may be dropped. -/
def Dispensable (level : Option Candidate) : Prop :=
  ∀ candidate ∈ level, candidate.required = false

/-- The scanner stands in flow collections of this depth, and outside all block collections, with
these tokens read, last first. -/
structure Steady (depth : Nat) (tokens : List Token) (s : Scanner) : Prop where
  noBlocks : s.indents = []
  isDepth : s.outer.length = depth
  dispensable : Dispensable s.candidate
  outerDispensable : ∀ level ∈ s.outer, Dispensable level
  areTokens : s.tokens = tokens
  isCount : s.count = tokens.length

variable {depth : Nat} {tokens : List Token} {s : Scanner}

/-- No candidate at all. -/
theorem dispensable_none : Dispensable none :=
  fun _ isNone => by cases isNone

/-- A candidate that may be dropped is dropped. -/
theorem Dispensable.forget? {level : Option Candidate} (dispensable : Dispensable level) :
    Scanner.forget? level = some none := by
  cases level with
  | none => rfl
  | some candidate =>
      rw [Scanner.forget?, dispensable candidate rfl]
      rfl

/-- In a flow collection the scanner is inside some collection. -/
theorem Steady.inFlow (steady : Steady depth tokens s) : s.inFlow = decide (0 < depth) := by
  rw [Scanner.inFlow, ← steady.isDepth]
  cases s.outer <;> simp

/-- A level without its candidate if it is stale. -/
def dropStale (g : Glyph) (level : Option Candidate) : Option Candidate :=
  if level.any (Scanner.isStale g) then none else level

/-- Dropping keeps what may be dropped. -/
theorem Dispensable.dropStale {level : Option Candidate} (dispensable : Dispensable level)
    (g : Glyph) : Dispensable (dropStale g level) := by
  unfold Portable.dropStale
  split_ifs
  · exact dispensable_none
  · exact dispensable

/-- What may be dropped is dropped when it is stale. -/
theorem Dispensable.check {level : Option Candidate} (dispensable : Dispensable level)
    (g : Glyph) :
    (if level.any (Scanner.isStale g) then Scanner.forget? level else some level) =
      some (Portable.dropStale g level) := by
  unfold Portable.dropStale
  split_ifs
  · exact dispensable.forget?
  · rfl

/-- A pass over a list that never fails. -/
theorem mapM_eq_some_map {α β : Type} {items : List α} {step : α → Option β} {result : α → β}
    (each : ∀ item ∈ items, step item = some (result item)) :
    items.mapM step = some (items.map result) := by
  induction items with
  | nil => rfl
  | cons item rest ih =>
      obtain ⟨first, later⟩ := List.forall_mem_cons.mp each
      rw [List.mapM_cons, first, ih later]
      rfl

/-- Stale candidates are dropped at all levels. -/
theorem Steady.forgetStale? (steady : Steady depth tokens s) (g : Glyph) :
    s.forgetStale? g =
      some { s with candidate := dropStale g s.candidate, outer := s.outer.map (dropStale g) } := by
  have outer := mapM_eq_some_map fun level member => (steady.outerDispensable level member).check g
  rw [Scanner.forgetStale?]
  simp only [steady.dispensable.check g, outer, Option.bind_eq_bind, Option.bind_some,
    Option.pure_def]

/-- Nothing else is changed by this. -/
theorem Steady.afterStale (steady : Steady depth tokens s) (g : Glyph) (keyAllowed : Bool) :
    Steady depth tokens { s with
      keyAllowed, candidate := dropStale g s.candidate, outer := s.outer.map (dropStale g) } where
  noBlocks := steady.noBlocks
  isDepth := by rw [List.length_map, steady.isDepth]
  dispensable := steady.dispensable.dropStale g
  outerDispensable := by
    intro level member
    obtain ⟨before, isBefore, rfl⟩ := List.mem_map.mp member
    exact (steady.outerDispensable before isBefore).dropStale g
  areTokens := steady.areTokens
  isCount := steady.isCount

/-- Without block collections none is closed. -/
theorem Steady.closeBlocksTo (steady : Steady depth tokens s) (column : Nat) :
    s.closeBlocksTo column = s := by
  have noBlocks := steady.noBlocks
  obtain ⟨rest, tokens, count, indents, candidate, outer, keyAllowed⟩ := s
  cases noBlocks
  rw [Scanner.closeBlocksTo]
  split_ifs
  · rfl
  · rfl

/-- A step reads the token behind a gap. -/
theorem Steady.run?_succ (steady : Steady depth tokens s) {g : Glyph} {later : List Glyph}
    {keyAllowed : Bool}
    (isSkipped : Scanner.skipGap s.inFlow s.keyAllowed false s.rest = (keyAllowed, g :: later))
    (steps : Nat) :
    Scanner.run? (steps + 1) s =
      (Scanner.token? { s with
        keyAllowed, candidate := dropStale g s.candidate, outer := s.outer.map (dropStale g) }
        g later).bind (Scanner.run? steps) := by
  have allowed : Steady depth tokens { s with keyAllowed } := { steady with }
  rw [Scanner.run?, isSkipped]
  simp only [allowed.forgetStale?, Option.bind_eq_bind, Option.bind_some]
  rw [(steady.afterStale g keyAllowed).closeBlocksTo]

/-- The tokens are complete when only a gap is left. -/
theorem Steady.run?_end (steady : Steady depth tokens s) {keyAllowed : Bool}
    (isSkipped : Scanner.skipGap s.inFlow s.keyAllowed false s.rest = (keyAllowed, []))
    (steps : Nat) :
    Scanner.run? (steps + 1) s = some (tokens.reverse ++ [.streamEnd]) := by
  have areClosed : s.closeAllBlocks = s := by
    have noBlocks := steady.noBlocks
    obtain ⟨rest, tokens, count, indents, candidate, outer, keyAllowed⟩ := s
    cases noBlocks
    rw [Scanner.closeAllBlocks]
    split_ifs <;> rfl
  have outer : s.outer.mapM Scanner.forget? = some (s.outer.map fun _ => none) :=
    mapM_eq_some_map fun level member => (steady.outerDispensable level member).forget?
  rw [Scanner.run?, isSkipped]
  simp only [Scanner.finish?, areClosed, outer, Scanner.forgetCandidate?,
    steady.dispensable.forget?, Scanner.push, Option.bind_eq_bind, Option.bind_some,
    Option.pure_def, steady.areTokens, List.reverse_cons]

/-- A possible key is remembered where one may begin. -/
theorem Steady.remember? (steady : Steady depth tokens s) (g : Glyph) :
    ∃ next, s.remember? g = some next ∧ Steady depth tokens next ∧ next.outer = s.outer ∧
      (s.keyAllowed = true → next.candidate = some ⟨g.line, g.column, tokens.length, false⟩) := by
  unfold Scanner.remember?
  split_ifs with isAllowed
  · rw [steady.dispensable.forget?]
    refine ⟨_, rfl, { steady with dispensable := ?_ }, rfl, ?_⟩
    · intro candidate isCandidate
      cases isCandidate
      simp [steady.noBlocks]
    · intro _
      simp [steady.noBlocks, steady.isCount]
  · exact ⟨s, rfl, steady, rfl, fun isAllowed' => absurd isAllowed' isAllowed⟩

/-- A flow collection is opened. -/
theorem Steady.openFlow? (steady : Steady depth tokens s) (g : Glyph) (token : Token)
    (rest : List Glyph) :
    ∃ next, s.openFlow? g token rest = some next ∧ Steady (depth + 1) (token :: tokens) next ∧
      next.rest = rest ∧ next.keyAllowed = true := by
  obtain ⟨marked, isMarked, steady, -, -⟩ := steady.remember? g
  refine ⟨{ marked.push token with
    rest, keyAllowed := true, candidate := none, outer := marked.candidate :: marked.outer },
    by rw [Scanner.openFlow?, isMarked]; rfl, ?_, rfl, rfl⟩
  exact {
    noBlocks := steady.noBlocks
    isDepth := congrArg (· + 1) steady.isDepth
    dispensable := dispensable_none
    outerDispensable := List.forall_mem_cons.mpr ⟨steady.dispensable, steady.outerDispensable⟩
    areTokens := congrArg (token :: ·) steady.areTokens
    isCount := congrArg (· + 1) steady.isCount }

/-- A flow collection is closed. -/
theorem Steady.closeFlow? (steady : Steady (depth + 1) tokens s) (token : Token)
    (rest : List Glyph) :
    ∃ next, s.closeFlow? token rest = some next ∧ Steady depth (token :: tokens) next ∧
      next.rest = rest ∧ next.keyAllowed = false := by
  obtain ⟨level, outer, isOuter⟩ := List.exists_cons_of_length_eq_add_one steady.isDepth
  have dispensable := steady.outerDispensable
  have isDepth := steady.isDepth
  rw [isOuter] at dispensable isDepth
  obtain ⟨first, later⟩ := List.forall_mem_cons.mp dispensable
  refine ⟨_, by
    rw [Scanner.closeFlow?, Scanner.forgetCandidate?, steady.dispensable.forget?]
    simp only [Option.bind_eq_bind, Option.bind_some, Option.pure_def, isOuter]
    rfl, ?_, rfl, rfl⟩
  exact {
    noBlocks := steady.noBlocks
    isDepth := Nat.succ.inj isDepth
    dispensable := first
    outerDispensable := later
    areTokens := congrArg (token :: ·) steady.areTokens
    isCount := congrArg (· + 1) steady.isCount }

/-- A token that cannot begin a key. -/
theorem Steady.plainToken? (steady : Steady depth tokens s) (token : Token) (rest : List Glyph)
    (keyAllowed : Bool) :
    ∃ next, s.plainToken? token rest keyAllowed = some next ∧
      Steady depth (token :: tokens) next ∧ next.rest = rest ∧ next.keyAllowed = keyAllowed := by
  refine ⟨_, by
    rw [Scanner.plainToken?, Scanner.forgetCandidate?, steady.dispensable.forget?]; rfl,
    ?_, rfl, rfl⟩
  exact {
    noBlocks := steady.noBlocks
    isDepth := steady.isDepth
    dispensable := dispensable_none
    outerDispensable := steady.outerDispensable
    areTokens := congrArg (token :: ·) steady.areTokens
    isCount := congrArg (· + 1) steady.isCount }

/-- A token that may be the beginning of a key. -/
theorem Steady.keyToken? (steady : Steady depth tokens s) (g : Glyph) (token : Token)
    (rest : List Glyph) :
    ∃ next, s.keyToken? g token rest = some next ∧ Steady depth (token :: tokens) next ∧
      next.rest = rest ∧ next.keyAllowed = false ∧
      (s.keyAllowed = true → next.candidate = some ⟨g.line, g.column, tokens.length, false⟩) := by
  obtain ⟨marked, isMarked, steady, -, isCandidate⟩ := steady.remember? g
  refine ⟨{ marked.push token with rest, keyAllowed := false },
    by rw [Scanner.keyToken?, isMarked]; rfl, ?_, rfl, rfl, isCandidate⟩
  exact {
    noBlocks := steady.noBlocks
    isDepth := steady.isDepth
    dispensable := steady.dispensable
    outerDispensable := steady.outerDispensable
    areTokens := congrArg (token :: ·) steady.areTokens
    isCount := congrArg (· + 1) steady.isCount }

/-- The colon behind a name makes a key of it. -/
theorem Steady.value? {name : Token} (steady : Steady (depth + 1) (name :: tokens) s) (g : Glyph)
    (rest : List Glyph) {line column : Nat}
    (isCandidate : s.candidate = some ⟨line, column, tokens.length, false⟩) :
    ∃ next, s.value? g rest = some next ∧
      Steady (depth + 1) (.value :: name :: .key :: tokens) next ∧ next.rest = rest := by
  have inFlow : s.inFlow = true := by
    rw [steady.inFlow]
    exact decide_eq_true (Nat.succ_pos depth)
  have opensNone : s.opensBlock column = false := by
    rw [Scanner.opensBlock, inFlow]
    rfl
  refine ⟨{ s with
    candidate := none, tokens := .value :: name :: .key :: tokens, count := tokens.length + 3
    rest, keyAllowed := false }, ?_, ?_, rfl⟩
  · rw [Scanner.value?, isCandidate]
    simp only
    rw [if_neg]
    · simp [Scanner.insertAt, Scanner.push, steady.areTokens, steady.isCount]
    · simpa [Scanner.opensBlock, Scanner.inFlow] using opensNone
  · exact {
      noBlocks := steady.noBlocks
      isDepth := steady.isDepth
      dispensable := dispensable_none
      outerDispensable := steady.outerDispensable
      areTokens := rfl
      isCount := rfl }

/-- A word is read with the gap behind it. -/
theorem Steady.plain? (steady : Steady depth tokens s) {word gap text : List Char} (g : Glyph)
    (line column : Nat) (isWord : ∀ c ∈ word, IsLetter c)
    (isGap : ∀ c ∈ gap, Json.Token.isBlank c = true) (ends : EndsWord s.inFlow text) :
    ∃ next endLine endColumn,
      s.plain? g (place line column (word ++ (gap ++ text))) = some next ∧
      Steady depth (.scalar (String.ofList word) true :: tokens) next ∧
      next.rest = place endLine endColumn text := by
  obtain ⟨broken, endLine, endColumn, isRead⟩ := plainScalar?_word line column isWord isGap ends
  obtain ⟨next, isNext, steadyNext, isRest, -, -⟩ :=
    steady.keyToken? g (.scalar (String.ofList word) true) (place endLine endColumn text)
  refine ⟨{ next with keyAllowed := broken }, endLine, endColumn, ?_, { steadyNext with }, isRest⟩
  rw [Scanner.plain?, steady.noBlocks]
  simp only [List.head?_nil, Option.elim_none, isRead, Option.bind_eq_bind, Option.bind_some,
    isNext, Option.pure_def]

variable {line column : Nat} {rest : List Glyph}

theorem token?_openArray : s.token? ⟨'[', line, column⟩ rest =
    s.openFlow? ⟨'[', line, column⟩ .flowSequenceStart rest := by
  simp [Scanner.token?, atLineMark_of_ne]

theorem token?_closeArray :
    s.token? ⟨']', line, column⟩ rest = s.closeFlow? .flowSequenceEnd rest := by
  simp [Scanner.token?, atLineMark_of_ne]

theorem token?_openObject : s.token? ⟨'{', line, column⟩ rest =
    s.openFlow? ⟨'{', line, column⟩ .flowMappingStart rest := by
  simp [Scanner.token?, atLineMark_of_ne]

theorem token?_closeObject :
    s.token? ⟨'}', line, column⟩ rest = s.closeFlow? .flowMappingEnd rest := by
  simp [Scanner.token?, atLineMark_of_ne]

theorem token?_comma :
    s.token? ⟨',', line, column⟩ rest = s.plainToken? .flowEntry rest true := by
  simp [Scanner.token?, atLineMark_of_ne]

theorem token?_colon (inFlow : s.inFlow = true) :
    s.token? ⟨':', line, column⟩ rest = s.value? ⟨':', line, column⟩ rest := by
  simp [Scanner.token?, atLineMark_of_ne, inFlow]

theorem token?_quote : s.token? ⟨'"', line, column⟩ rest =
    (doubleQuoted? [] {} rest).bind fun (text, rest) =>
      s.keyToken? ⟨'"', line, column⟩ (.scalar text false) rest := by
  simp [Scanner.token?, atLineMark_of_ne]

/-- A letter or a digit begins a plain scalar. -/
theorem token?_alphanumeric {c : Char} (isAlphanum : c.isAlphanum = true) :
    s.token? ⟨c, line, column⟩ rest = s.plain? ⟨c, line, column⟩ (⟨c, line, column⟩ :: rest) := by
  have differs : ∀ {other : Char}, other.isAlphanum = false → c ≠ other := by
    intro other noAlphanum isOther
    rw [isOther, noAlphanum] at isAlphanum
    cases isAlphanum
  have areMarks : ∀ other ∈ Scanner.indicators, other.isAlphanum = false := by
    simp [Scanner.indicators, Char.isAlphanum, Char.isAlpha, Char.isUpper, Char.isLower,
      Char.isDigit]
  have noIndicator : c ∉ Scanner.indicators := fun member => differs (areMarks c member) rfl
  have noBlank : c ≠ ' ' ∧ c ≠ '\t' := ⟨differs rfl, differs rfl⟩
  rw [Scanner.token?, atLineMark_of_ne (differs rfl), atLineMark_of_ne (differs rfl)]
  simp only [Scanner.indicators, List.mem_cons, not_or] at noIndicator
  simp [noIndicator, Scanner.beginsPlain, isBlank_eq, Scanner.indicators, noBlank]

/-- So does a sign before a digit. -/
theorem token?_minus {c : Char} (isDigit : c.isDigit = true) (more : List Glyph) :
    s.token? ⟨'-', line, column⟩ (⟨c, line, column + 1⟩ :: more) =
      s.plain? ⟨'-', line, column⟩ (⟨'-', line, column⟩ :: ⟨c, line, column + 1⟩ :: more) := by
  have isLetter : IsLetter c := isLetter_of_isDigit isDigit
  have noDash : c ≠ '-' := by
    rintro rfl
    cases isDigit
  have noBlank : c ≠ ' ' ∧ c ≠ '\t' := ⟨isLetter.ne (by decide), isLetter.ne (by decide)⟩
  have noDocument :
      atLineMark '-' (⟨'-', line, column⟩ :: ⟨c, line, column + 1⟩ :: more) = false := by
    cases more with
    | nil => rfl
    | cons _ _ => simp [atLineMark, noDash]
  rw [Scanner.token?, noDocument]
  simp [Scanner.beginsPlain, isBlank_eq, Scanner.indicators, noBlank, atGap,
    isBreak_of_inLine (inLine_of_isLetter isLetter), atLineMark_of_ne]

/-- A word begins a plain scalar. -/
theorem token?_word {c : Char} {more : List Char} (isWord : SpellsWord (c :: more))
    (behind : List Char) :
    s.token? ⟨c, line, column⟩ (place line (column + 1) (more ++ behind)) =
      s.plain? ⟨c, line, column⟩ (place line column (c :: (more ++ behind))) := by
  obtain ⟨first, later, isCons, isBeginning⟩ := isWord.exists_eq_cons
  have inLine := inLine_of_isLetter (isWord.isLetter c List.mem_cons_self)
  cases isCons
  rw [place_cons inLine]
  rcases isBeginning with isAlphanum | ⟨rfl, d, last, rfl, isDigit⟩
  · exact token?_alphanumeric isAlphanum
  · rw [List.cons_append, place_cons (inLine_of_isLetter (isLetter_of_isDigit isDigit))]
    exact token?_minus isDigit _

end MenuPlan.Portable

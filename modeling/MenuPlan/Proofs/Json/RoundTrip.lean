/-
# Reading what has been written

A value is written as a list of tokens, whatever the layout, and the scanner finds these tokens in
the text. The reader accepts them exactly if no more arrays and objects lie inside each other than
it admits, and then gives `Data.reread`: the value with every number as it is read. Nothing else can
be refused.
-/

import Mathlib
import MenuPlan.Json.Reader
import MenuPlan.Json.Writer
import MenuPlan.Proofs.Json.Numeral
import MenuPlan.Proofs.Json.Scanning

namespace MenuPlan

namespace Json

mutual

/-- The tokens of a written value. -/
def tokens : Data → List Token
  | .null => [.word ['n', 'u', 'l', 'l']]
  | .bool true => [.word ['t', 'r', 'u', 'e']]
  | .bool false => [.word ['f', 'a', 'l', 's', 'e']]
  | .number n => [.word n.text]
  | .string s => [.string s]
  | .array [] => [.openArray, .closeArray]
  | .array (item :: rest) => .openArray :: (tokens item ++ (itemTokens rest ++ [.closeArray]))
  | .object [] => [.openObject, .closeObject]
  | .object ((name, value) :: rest) =>
      .openObject :: .string name :: .colon ::
        (tokens value ++ (memberTokens rest ++ [.closeObject]))

/-- The tokens of the items after the first. -/
def itemTokens : List Data → List Token
  | [] => []
  | item :: rest => .comma :: (tokens item ++ itemTokens rest)

/-- The tokens of the members after the first. -/
def memberTokens : List (String × Data) → List Token
  | [] => []
  | (name, value) :: rest =>
      .comma :: .string name :: .colon :: (tokens value ++ memberTokens rest)

end

/-- Before a boundary the text is scanned as these tokens. -/
def Scans (text : List Char) (tokens : List Token) : Prop :=
  ∀ rest, Token.AtBoundary rest →
    Token.scan [] (text ++ rest) = (tokens ++ ·) <$> Token.scan [] rest

/-- The text leaves a boundary before it. -/
def Bounded (text : List Char) : Prop :=
  ∀ rest, Token.AtBoundary rest → Token.AtBoundary (text ++ rest)

namespace Scans

variable {text more : List Char} {tokens further : List Token}

theorem nil : Scans [] [] := by
  intro rest _
  simp

theorem word (nonempty : text ≠ []) (inWord : ∀ c ∈ text, Token.isWordChar c = true) :
    Scans text [.word text] := by
  intro rest boundary
  exact Token.scan_word nonempty inWord boundary

theorem append (first : Scans text tokens) (second : Scans more further) (bounded : Bounded more) :
    Scans (text ++ more) (tokens ++ further) := by
  intro rest boundary
  rw [List.append_assoc, first _ (bounded rest boundary), second rest boundary, Functor.map_map]
  simp only [List.append_assoc]

theorem punctuation {c : Char} {token : Token} (isToken : Token.ofPunctuation? c = some token)
    (noQuote : c ≠ '"') (noBlank : Token.isBlank c = false) (later : Scans text tokens) :
    Scans (c :: text) (token :: tokens) := by
  intro rest boundary
  rw [List.cons_append, Token.scan_punctuation isToken noQuote noBlank, later rest boundary,
    Functor.map_map]
  rfl

theorem lineBreak (layout : Layout) (level : Nat) (later : Scans text tokens) :
    Scans (layout.lineBreak level ++ text) tokens := by
  intro rest boundary
  rw [List.append_assoc, Token.scan_lineBreak, later rest boundary]

theorem quoted (s : String) (later : Scans text tokens) :
    Scans (quoted s ++ text) (.string s :: tokens) := by
  intro rest boundary
  rw [List.append_assoc, Token.scan_quoted, later rest boundary, Functor.map_map]
  rfl

theorem colon (layout : Layout) (later : Scans text tokens) :
    Scans (layout.colon ++ text) (.colon :: tokens) := by
  cases layout with
  | compact => exact later.punctuation rfl (by decide) rfl
  | indented =>
      intro rest boundary
      have blank : Scans (' ' :: text) tokens := by
        intro rest boundary
        rw [List.cons_append, Token.scan_blank rfl, later rest boundary]
      exact blank.punctuation rfl (by decide) rfl rest boundary

end Scans

namespace Bounded

theorem nil : Bounded [] :=
  fun _ boundary => boundary

theorem cons {c : Char} (noWord : Token.isWordChar c = false) (text : List Char) :
    Bounded (c :: text) :=
  fun _ _ => (Token.atBoundary_cons _ _).mpr noWord

theorem lineBreak (layout : Layout) (level : Nat) {text : List Char} (bounded : Bounded text) :
    Bounded (layout.lineBreak level ++ text) := by
  cases layout with
  | compact => exact bounded
  | indented => exact cons rfl _

theorem writeItems (layout : Layout) (level : Nat) (items : List Data) {text : List Char}
    (bounded : Bounded text) : Bounded (writeItems layout level items ++ text) := by
  cases items with
  | nil =>
      rw [Json.writeItems]
      exact bounded
  | cons item rest =>
      rw [Json.writeItems]
      exact cons rfl _

theorem writeMembers (layout : Layout) (level : Nat) (members : List (String × Data))
    {text : List Char} (bounded : Bounded text) :
    Bounded (writeMembers layout level members ++ text) := by
  cases members with
  | nil =>
      rw [Json.writeMembers]
      exact bounded
  | cons member rest =>
      rw [Json.writeMembers]
      exact cons rfl _

end Bounded

mutual

/-- A written value is scanned as its tokens. -/
theorem scans_write (layout : Layout) (level : Nat) : ∀ value : Data,
    Scans (write layout level value) (tokens value)
  | .null => by
      rw [write, tokens]
      exact Scans.word (by decide) (by simp [Token.isWordChar, Token.isBlank, Token.ofPunctuation?])
  | .bool true => by
      rw [write, tokens]
      exact Scans.word (by decide) (by simp [Token.isWordChar, Token.isBlank, Token.ofPunctuation?])
  | .bool false => by
      rw [write, tokens]
      exact Scans.word (by decide) (by simp [Token.isWordChar, Token.isBlank, Token.ofPunctuation?])
  | .number n => by
      rw [write, tokens]
      exact Scans.word (text_isWord n).1 (text_isWord n).2
  | .string s => by
      rw [write, tokens, ← List.append_nil (quoted s)]
      exact Scans.nil.quoted s
  | .array [] => by
      rw [write, tokens]
      exact (Scans.nil.punctuation rfl (by decide) rfl).punctuation rfl (by decide) rfl
  | .array (item :: rest) => by
      rw [write, tokens]
      simp only [List.append_assoc]
      have closing : Scans (layout.lineBreak level ++ [']']) [.closeArray] :=
        (Scans.nil.punctuation rfl (by decide) rfl).lineBreak layout level
      have closingBounded : Bounded (layout.lineBreak level ++ [']']) :=
        (Bounded.cons rfl []).lineBreak layout level
      have later := (scans_writeItems layout (level + 1) rest).append closing closingBounded
      have laterBounded := closingBounded.writeItems layout (level + 1) rest
      have items := (scans_write layout (level + 1) item).append later laterBounded
      exact (items.lineBreak layout (level + 1)).punctuation rfl (by decide) rfl
  | .object [] => by
      rw [write, tokens]
      exact (Scans.nil.punctuation rfl (by decide) rfl).punctuation rfl (by decide) rfl
  | .object ((name, value) :: rest) => by
      rw [write, tokens]
      simp only [List.append_assoc]
      have closing : Scans (layout.lineBreak level ++ ['}']) [.closeObject] :=
        (Scans.nil.punctuation rfl (by decide) rfl).lineBreak layout level
      have closingBounded : Bounded (layout.lineBreak level ++ ['}']) :=
        (Bounded.cons rfl []).lineBreak layout level
      have later := (scans_writeMembers layout (level + 1) rest).append closing closingBounded
      have laterBounded := closingBounded.writeMembers layout (level + 1) rest
      have first := (scans_write layout (level + 1) value).append later laterBounded
      have members := ((first.colon layout).quoted name).lineBreak layout (level + 1)
      exact members.punctuation rfl (by decide) rfl

theorem scans_writeItems (layout : Layout) (level : Nat) : ∀ items : List Data,
    Scans (writeItems layout level items) (itemTokens items)
  | [] => by
      rw [writeItems, itemTokens]
      exact Scans.nil
  | item :: rest => by
      rw [writeItems, itemTokens]
      simp only [List.append_assoc]
      have later := scans_writeItems layout level rest
      have laterBounded : Bounded (writeItems layout level rest) := by
        rw [← List.append_nil (writeItems layout level rest)]
        exact Bounded.nil.writeItems layout level rest
      have items := (scans_write layout level item).append later laterBounded
      exact (items.lineBreak layout level).punctuation rfl (by decide) rfl

theorem scans_writeMembers (layout : Layout) (level : Nat) : ∀ members : List (String × Data),
    Scans (writeMembers layout level members) (memberTokens members)
  | [] => by
      rw [writeMembers, memberTokens]
      exact Scans.nil
  | (name, value) :: rest => by
      rw [writeMembers, memberTokens]
      simp only [List.append_assoc]
      have later := scans_writeMembers layout level rest
      have laterBounded : Bounded (writeMembers layout level rest) := by
        rw [← List.append_nil (writeMembers layout level rest)]
        exact Bounded.nil.writeMembers layout level rest
      have first := (scans_write layout level value).append later laterBounded
      have members := ((first.colon layout).quoted name).lineBreak layout level
      exact members.punctuation rfl (by decide) rfl

end

/-! ## Reading -/

mutual

/-- The value that is read where a value has been written. -/
def reread : Data → Data
  | .null => .null
  | .bool b => .bool b
  | .number n => .number (rereadNumber n)
  | .string s => .string s
  | .array items => .array (rereadItems items)
  | .object members => .ofMembers (rereadMembers members)

/-- The items that are read. -/
def rereadItems : List Data → List Data
  | [] => []
  | item :: rest => reread item :: rereadItems rest

/-- The members that are read. -/
def rereadMembers : List (String × Data) → List (String × Data)
  | [] => []
  | (name, value) :: rest => (name, reread value) :: rereadMembers rest

end

@[simp] theorem names_rereadMembers (members : List (String × Data)) :
    Fields.names (rereadMembers members) = Fields.names members := by
  induction members with
  | nil => rfl
  | cons member rest ih =>
      obtain ⟨name, value⟩ := member
      rw [rereadMembers, Fields.names_cons, Fields.names_cons, ih]

namespace Reading

/-- No value starts with the end of an array. -/
theorem exists_tokens_cons (value : Data) :
    ∃ first rest, tokens value = first :: rest ∧ first ≠ .closeArray := by
  unfold tokens
  split
  all_goals exact ⟨_, _, rfl, nofun⟩

/-- An array that has just been opened takes the tokens of a value as its first item. -/
theorem foldlM_afterOpenArray (value : Data) (around : List Frame) :
    (tokens value).foldlM step (afterOpenArray around) =
      (tokens value).foldlM step (beforeValue (.items [] :: around)) := by
  obtain ⟨first, rest, isTokens, notClosing⟩ := exists_tokens_cons value
  rw [isTokens, List.foldlM_cons, List.foldlM_cons]
  cases first with
  | closeArray => exact absurd rfl notClosing
  | openArray => rfl
  | openObject => rfl
  | closeObject => rfl
  | comma => rfl
  | colon => rfl
  | string text => rfl
  | word text => rfl

/-- A token that is a whole value leads to it. -/
theorem foldlM_scalar {token : Token} {value : Data} {around : List Frame}
    (isValue : start around token = some (deliver value around))
    (room : around.length ≤ depthLimit) :
    [token].foldlM step (beforeValue around) =
      if around.length + 0 ≤ depthLimit then some (deliver value around) else none := by
  rw [List.foldlM_cons, step, isValue, Nat.add_zero, if_pos room]
  rfl

/-- Two lists of tokens in a row that are each refused exactly if they nest too deep. -/
theorem foldlM_append_of_depth {first later : List Token} {before between after : Reading}
    {outer depth depths : Nat}
    (firstPart : first.foldlM step before =
      if outer + depth ≤ depthLimit then some between else none)
    (laterPart : later.foldlM step between =
      if outer + depths ≤ depthLimit then some after else none)
    (closing : List Token) :
    (first ++ (later ++ closing)).foldlM step before =
      if outer + max depth depths ≤ depthLimit then closing.foldlM step after else none := by
  rw [List.foldlM_append, firstPart]
  by_cases firstFits : outer + depth ≤ depthLimit
  · rw [if_pos firstFits]
    show (later ++ closing).foldlM step between = _
    rw [List.foldlM_append, laterPart]
    by_cases laterFits : outer + depths ≤ depthLimit
    · rw [if_pos laterFits, if_pos (by omega)]
      rfl
    · rw [if_neg laterFits, if_neg (by omega)]
      rfl
  · rw [if_neg firstFits, if_neg (by omega)]
    rfl

mutual

/-- The tokens of a value lead to the value, unless it nests too deep. The induction is on the
value, for all surroundings that may be open at a time. -/
theorem foldlM_tokens (around : List Frame) (room : around.length ≤ depthLimit) : ∀ value : Data,
    (tokens value).foldlM step (beforeValue around) =
      if around.length + value.depth ≤ depthLimit then some (deliver (reread value) around)
      else none
  | .null => by
      rw [tokens, Data.depth, reread]
      exact foldlM_scalar rfl room
  | .bool true => by
      rw [tokens, Data.depth, reread]
      exact foldlM_scalar rfl room
  | .bool false => by
      rw [tokens, Data.depth, reread]
      exact foldlM_scalar rfl room
  | .number n => by
      rw [tokens, Data.depth, reread]
      refine foldlM_scalar ?_ room
      rw [start, scalar?_text]
      rfl
  | .string s => by
      rw [tokens, Data.depth, reread]
      exact foldlM_scalar rfl room
  | .array [] => by
      rw [tokens, Data.depth, reread, List.foldlM_cons, step, start]
      by_cases isOpen : around.length < depthLimit
      · rw [if_pos isOpen, Data.depthItems, rereadItems, Nat.zero_add,
          if_pos (Nat.succ_le_of_lt isOpen)]
        rfl
      · rw [if_neg isOpen, if_neg (by omega)]
        rfl
  | .array (item :: rest) => by
      rw [tokens, Data.depth, reread, List.foldlM_cons, step, start]
      by_cases isOpen : around.length < depthLimit
      · have first := foldlM_tokens (.items [] :: around) isOpen item
        have later := foldlM_itemTokens [reread item] around isOpen rest
        rw [if_pos isOpen, Data.depthItems, ← Nat.add_assoc, Nat.add_right_comm]
        show (tokens item ++ (itemTokens rest ++ [Token.closeArray])).foldlM step
          (afterOpenArray around) = _
        rw [List.foldlM_append, foldlM_afterOpenArray, ← List.foldlM_append,
          foldlM_append_of_depth first later, ← List.reverse_cons]
        show (if _ then
          some (deliver (.array (rereadItems (item :: rest)).reverse.reverse) around) else none) = _
        rw [List.reverse_reverse]
        rfl
      · rw [if_neg isOpen, if_neg (by omega)]
        rfl
  | .object [] => by
      rw [tokens, Data.depth, reread, List.foldlM_cons, step, start]
      by_cases isOpen : around.length < depthLimit
      · rw [if_pos isOpen, Data.depthMembers, rereadMembers, Nat.zero_add,
          if_pos (Nat.succ_le_of_lt isOpen)]
        rfl
      · rw [if_neg isOpen, if_neg (by omega)]
        rfl
  | .object ((name, value) :: rest) => by
      rw [tokens, Data.depth, reread, List.foldlM_cons, step, start]
      by_cases isOpen : around.length < depthLimit
      · have first := foldlM_tokens (.members [] name :: around) isOpen value
        have later :=
          foldlM_memberTokens (Fields.insert [] name (reread value)) around isOpen rest
        rw [if_pos isOpen, Data.depthMembers, ← Nat.add_assoc, Nat.add_right_comm]
        show (tokens value ++ (memberTokens rest ++ [Token.closeObject])).foldlM step
          (beforeValue (.members [] name :: around)) = _
        rw [foldlM_append_of_depth first later]
        rfl
      · rw [if_neg isOpen, if_neg (by omega)]
        rfl

theorem foldlM_itemTokens (done : List Data) (around : List Frame)
    (room : around.length < depthLimit) : ∀ items : List Data,
    (itemTokens items).foldlM step (afterItem done around) =
      if around.length + 1 + Data.depthItems items ≤ depthLimit then
        some (afterItem ((rereadItems items).reverse ++ done) around)
      else none
  | [] => by
      rw [itemTokens, Data.depthItems, rereadItems, Nat.add_zero, if_pos (Nat.succ_le_of_lt room)]
      rfl
  | item :: rest => by
      have first := foldlM_tokens (.items done :: around) room item
      have later := foldlM_itemTokens (reread item :: done) around room rest
      have both := foldlM_append_of_depth first later []
      rw [List.append_nil] at both
      rw [itemTokens, Data.depthItems, rereadItems, List.reverse_cons, List.append_assoc]
      exact both

theorem foldlM_memberTokens (done : Fields Data) (around : List Frame)
    (room : around.length < depthLimit) : ∀ members : List (String × Data),
    (memberTokens members).foldlM step (afterMember done around) =
      if around.length + 1 + Data.depthMembers members ≤ depthLimit then
        some (afterMember (Fields.overlay done (rereadMembers members)) around)
      else none
  | [] => by
      rw [memberTokens, Data.depthMembers, rereadMembers, Nat.add_zero,
        if_pos (Nat.succ_le_of_lt room)]
      rfl
  | (name, value) :: rest => by
      have first := foldlM_tokens (.members done name :: around) room value
      have later := foldlM_memberTokens (Fields.insert done name (reread value)) around room rest
      have both := foldlM_append_of_depth first later []
      rw [List.append_nil] at both
      rw [memberTokens, Data.depthMembers]
      exact both

end

end Reading

/-- Blanks are scanned as nothing. -/
theorem scan_blanks {blanks : List Char} (isBlank : ∀ c ∈ blanks, Token.isBlank c = true) :
    Token.scan [] blanks = some [] := by
  induction blanks with
  | nil => rfl
  | cons c blanks ih =>
      obtain ⟨first, later⟩ := List.forall_mem_cons.mp isBlank
      rw [Token.scan_blank first, ih later]

/-- Text that has been written, with blanks behind it, is refused exactly if it nests too deep. -/
theorem read?_write (layout : Layout) (value : Data) {blanks : List Char}
    (isBlank : ∀ c ∈ blanks, Token.isBlank c = true) :
    read? (String.ofList (write layout 0 value ++ blanks)) =
      if value.depth ≤ depthLimit then some (reread value) else none := by
  have boundary : Token.AtBoundary blanks := by
    intro c first
    have blank := isBlank c (List.mem_of_head? first)
    simp [Token.isWordChar, blank]
  have isScanned : Token.ofText? (write layout 0 value ++ blanks) = some (tokens value) := by
    rw [Token.ofText?, scans_write layout 0 value blanks boundary, scan_blanks isBlank]
    simp
  have isRead := Reading.foldlM_tokens [] (Nat.zero_le _) value
  rw [List.length_nil, Nat.zero_add] at isRead
  rw [read?, String.toList_ofList, isScanned]
  show ((tokens value).foldlM Reading.step (Reading.beforeValue [])).bind Reading.result? = _
  rw [isRead]
  split_ifs
  · rfl
  · rfl

end Json

end MenuPlan

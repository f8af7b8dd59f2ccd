/-
# Different values have different texts

A value can be told from the text that is written for it, in either layout, up to every number:
integers and binary64 numbers never share a text, and a binary64 number is determined by its
shortest decimal. This does not follow from reading the text again, because a reader may come out
at another number in the last place.

A text is scanned as the tokens of its value. That these tokens determine the value is proved for
tokens with anything behind them, so that the items of an array can be told apart one by one.
-/

import Mathlib
import MenuPlan.Proofs.Json.RoundTrip
import MenuPlan.Proofs.Number.Shortest

namespace MenuPlan

/-- Different binary64 numbers have different texts. -/
theorem Binary64.text_inj {x y : Binary64} (same : x.text = y.text) : x = y := by
  obtain ⟨first, isFirst, firstValue, -, -⟩ := Json.Literal.exists_binary64 x
  obtain ⟨second, isSecond, secondValue, -, -⟩ := Json.Literal.exists_binary64 y
  rw [isFirst, isSecond] at same
  obtain ⟨sameSign, sameText⟩ := Json.Literal.signed_inj same
  obtain ⟨sameWhole, sameFraction, sameExponent⟩ := Json.Literal.text_inj sameText
  have sameValue : x.shortest.value = y.shortest.value := by
    rw [← firstValue, ← secondValue, Json.Literal.decimal, Json.Literal.decimal, sameWhole,
      sameFraction, sameExponent]
  obtain ⟨sameSignificand, sameShift⟩ := eq_of_shortest_value_eq sameValue
  cases x
  cases y
  cases sameSign
  cases sameSignificand
  cases sameShift
  rfl

/-- No integer has the text of a binary64 number, which has a fraction or an exponent. -/
theorem Number.intText_ne_text (value : Int) (x : Binary64) : intText value ≠ x.text := by
  intro same
  obtain ⟨literal, isText, -, notWhole, -⟩ := Json.Literal.exists_binary64 x
  rw [Json.Literal.intText_eq, isText] at same
  obtain ⟨-, noFraction, noExponent⟩ := Json.Literal.text_inj (Json.Literal.signed_inj same).2
  exact notWhole noFraction.symm noExponent.symm

/-- Different numbers have different texts. -/
theorem Number.text_inj {first second : Number} (same : first.text = second.text) :
    first = second := by
  cases first with
  | int value inRange =>
      cases second with
      | int other otherInRange =>
          have isRead := Json.Literal.number?_intText value inRange
          rw [show intText value = intText other from same,
            Json.Literal.number?_intText other otherInRange] at isRead
          exact (Option.some.inj isRead).symm
      | real y => exact absurd same (intText_ne_text value y)
  | real x =>
      cases second with
      | int other _ => exact absurd same.symm (intText_ne_text other x)
      | real y => rw [Binary64.text_inj same]

namespace Json

/-- The token that a value begins with. -/
def firstToken : Data → Token
  | .null => .word ['n', 'u', 'l', 'l']
  | .bool true => .word ['t', 'r', 'u', 'e']
  | .bool false => .word ['f', 'a', 'l', 's', 'e']
  | .number n => .word n.text
  | .string s => .string s
  | .array _ => .openArray
  | .object _ => .openObject

theorem head?_tokens (value : Data) : (tokens value).head? = some (firstToken value) := by
  unfold tokens
  split
  all_goals rfl

/-- The word of a number is none of the names, because it is read as a number. -/
theorem text_ne_names (n : Number) : n.text ≠ ['n', 'u', 'l', 'l'] ∧
    n.text ≠ ['t', 'r', 'u', 'e'] ∧ n.text ≠ ['f', 'a', 'l', 's', 'e'] := by
  have isNumber := scalar?_text n
  rw [scalar?] at isNumber
  refine ⟨?_, ?_, ?_⟩
  · intro isNull
    rw [if_pos isNull] at isNumber
    cases isNumber
  · intro isTrue
    rw [isTrue, if_neg (by decide), if_pos rfl] at isNumber
    cases isNumber
  · intro isFalse
    rw [isFalse, if_neg (by decide), if_neg (by decide), if_pos rfl] at isNumber
    cases isNumber

/-- A value that is written as a single token is determined by it. -/
theorem eq_of_firstToken_eq {first second : Data} (same : firstToken first = firstToken second)
    (noArray : firstToken first ≠ .openArray) (noObject : firstToken first ≠ .openObject) :
    first = second := by
  cases first with
  | null =>
      cases second with
      | null => rfl
      | bool b => cases b <;> cases same
      | number n => exact absurd (Token.word.inj same).symm (text_ne_names n).1
      | string _ | array _ | object _ => cases same
  | bool b =>
      cases b with
      | true =>
          cases second with
          | bool other =>
              cases other with
              | true => rfl
              | false => cases same
          | number n => exact absurd (Token.word.inj same).symm (text_ne_names n).2.1
          | null | string _ | array _ | object _ => cases same
      | false =>
          cases second with
          | bool other =>
              cases other with
              | true => cases same
              | false => rfl
          | number n => exact absurd (Token.word.inj same).symm (text_ne_names n).2.2
          | null | string _ | array _ | object _ => cases same
  | number n =>
      cases second with
      | null => exact absurd (Token.word.inj same) (text_ne_names n).1
      | bool b =>
          cases b with
          | true => exact absurd (Token.word.inj same) (text_ne_names n).2.1
          | false => exact absurd (Token.word.inj same) (text_ne_names n).2.2
      | number m => rw [Number.text_inj (Token.word.inj same)]
      | string _ | array _ | object _ => cases same
  | string s =>
      cases second with
      | string t => rw [Token.string.inj same]
      | bool b => cases b <;> cases same
      | null | number _ | array _ | object _ => cases same
  | array _ => exact absurd rfl noArray
  | object _ => exact absurd rfl noObject

/-- Values begin alike if their tokens do, whatever follows. -/
theorem firstToken_eq_of_append {first second : Data} {rest other : List Token}
    (same : tokens first ++ rest = tokens second ++ other) :
    firstToken first = firstToken second := by
  have sameHead := congrArg List.head? same
  rw [List.head?_append, List.head?_append, head?_tokens, head?_tokens] at sameHead
  exact Option.some.inj sameHead

/-- A value that is written as a single token is determined by tokens that begin with it. -/
theorem eq_of_append_of_scalar {first second : Data} {rest other : List Token}
    (noArray : firstToken first ≠ .openArray) (noObject : firstToken first ≠ .openObject)
    (same : tokens first ++ rest = tokens second ++ other) : first = second ∧ rest = other := by
  have isEqual := eq_of_firstToken_eq (firstToken_eq_of_append same) noArray noObject
  subst isEqual
  exact ⟨rfl, List.append_cancel_left same⟩

theorem exists_array_of_firstToken {value : Data} (isFirst : firstToken value = .openArray) :
    ∃ items, value = .array items := by
  cases value with
  | array items => exact ⟨items, rfl⟩
  | bool b => cases b <;> cases isFirst
  | null | number _ | string _ | object _ => cases isFirst

theorem exists_object_of_firstToken {value : Data} (isFirst : firstToken value = .openObject) :
    ∃ members, value = .object members := by
  cases value with
  | object members => exact ⟨members, rfl⟩
  | bool b => cases b <;> cases isFirst
  | null | number _ | string _ | array _ => cases isFirst

/-- No value begins with the end of an array. -/
theorem closeArray_cons_ne (value : Data) {rest other : List Token} :
    Token.closeArray :: rest ≠ tokens value ++ other := by
  obtain ⟨first, later, isTokens, notClosing⟩ := Reading.exists_tokens_cons value
  intro same
  rw [isTokens] at same
  exact notClosing (List.cons.inj same).1.symm

mutual

/-- A value is determined by tokens that begin with it. -/
theorem eq_of_tokens_append : ∀ (first second : Data) {rest other : List Token},
    tokens first ++ rest = tokens second ++ other → first = second ∧ rest = other
  | .null, _, _, _, same => eq_of_append_of_scalar nofun nofun same
  | .bool true, _, _, _, same => eq_of_append_of_scalar nofun nofun same
  | .bool false, _, _, _, same => eq_of_append_of_scalar nofun nofun same
  | .number _, _, _, _, same => eq_of_append_of_scalar nofun nofun same
  | .string _, _, _, _, same => eq_of_append_of_scalar nofun nofun same
  | .array items, second, rest, other, same => by
      obtain ⟨others, rfl⟩ := exists_array_of_firstToken (firstToken_eq_of_append same).symm
      cases items with
      | nil =>
          cases others with
          | nil =>
              rw [tokens] at same
              exact ⟨rfl, List.append_cancel_left same⟩
          | cons otherItem others =>
              simp only [tokens, List.cons_append, List.append_assoc] at same
              exact absurd (List.cons.inj same).2 (closeArray_cons_ne otherItem)
      | cons item items =>
          cases others with
          | nil =>
              simp only [tokens, List.cons_append, List.append_assoc] at same
              exact absurd (List.cons.inj same).2.symm (closeArray_cons_ne item)
          | cons otherItem others =>
              rw [tokens, tokens] at same
              simp only [List.cons_append, List.append_assoc, List.cons.injEq, true_and,
                List.nil_append] at same
              obtain ⟨rfl, later⟩ := eq_of_tokens_append item otherItem same
              obtain ⟨rfl, rfl⟩ := eq_of_itemTokens_append items others later
              exact ⟨rfl, rfl⟩
  | .object members, second, rest, other, same => by
      obtain ⟨others, rfl⟩ := exists_object_of_firstToken (firstToken_eq_of_append same).symm
      cases members with
      | nil =>
          cases others with
          | nil =>
              rw [tokens] at same
              exact ⟨rfl, List.append_cancel_left same⟩
          | cons member others =>
              rw [tokens, tokens] at same
              cases same
      | cons member members =>
          obtain ⟨name, value⟩ := member
          cases others with
          | nil =>
              rw [tokens, tokens] at same
              cases same
          | cons member others =>
              obtain ⟨otherName, otherValue⟩ := member
              rw [tokens, tokens] at same
              simp only [List.cons_append, List.append_assoc, List.cons.injEq, true_and,
                Token.string.injEq, List.nil_append] at same
              obtain ⟨rfl, sameValue⟩ := same
              obtain ⟨rfl, later⟩ := eq_of_tokens_append value otherValue sameValue
              obtain ⟨rfl, rfl⟩ := eq_of_memberTokens_append members others later
              exact ⟨rfl, rfl⟩

/-- Items are determined by tokens that begin with them and the end of the array. -/
theorem eq_of_itemTokens_append : ∀ (items others : List Data) {rest other : List Token},
    itemTokens items ++ .closeArray :: rest = itemTokens others ++ .closeArray :: other →
      items = others ∧ rest = other
  | [], others, rest, other, same => by
      cases others with
      | nil =>
          rw [itemTokens] at same
          cases same
          exact ⟨rfl, rfl⟩
      | cons item others =>
          rw [itemTokens, itemTokens] at same
          cases same
  | item :: items, others, rest, other, same => by
      cases others with
      | nil =>
          rw [itemTokens, itemTokens] at same
          cases same
      | cons otherItem others =>
          rw [itemTokens, itemTokens] at same
          simp only [List.cons_append, List.append_assoc, List.cons.injEq, true_and] at same
          obtain ⟨rfl, later⟩ := eq_of_tokens_append item otherItem same
          obtain ⟨rfl, rfl⟩ := eq_of_itemTokens_append items others later
          exact ⟨rfl, rfl⟩

/-- Members are determined by tokens that begin with them and the end of the object. -/
theorem eq_of_memberTokens_append : ∀ (members others : List (String × Data))
    {rest other : List Token},
    memberTokens members ++ .closeObject :: rest = memberTokens others ++ .closeObject :: other →
      members = others ∧ rest = other
  | [], others, rest, other, same => by
      cases others with
      | nil =>
          rw [memberTokens] at same
          cases same
          exact ⟨rfl, rfl⟩
      | cons member others =>
          rw [memberTokens, memberTokens] at same
          cases same
  | (name, value) :: members, others, rest, other, same => by
      cases others with
      | nil =>
          rw [memberTokens, memberTokens] at same
          cases same
      | cons member others =>
          obtain ⟨otherName, otherValue⟩ := member
          rw [memberTokens, memberTokens] at same
          simp only [List.cons_append, List.append_assoc, List.cons.injEq, true_and,
            Token.string.injEq] at same
          obtain ⟨rfl, sameValue⟩ := same
          obtain ⟨rfl, later⟩ := eq_of_tokens_append value otherValue sameValue
          obtain ⟨rfl, rfl⟩ := eq_of_memberTokens_append members others later
          exact ⟨rfl, rfl⟩

end

/-- In either layout, different values have different texts. -/
theorem write_inj {layout : Layout} {first second : Data}
    (same : write layout 0 first = write layout 0 second) : first = second := by
  have isScanned : ∀ value, Token.scan [] (write layout 0 value) = some (tokens value) := by
    intro value
    have scanned := scans_write layout 0 value [] Token.atBoundary_nil
    rw [List.append_nil, scan_blanks (List.forall_mem_nil _)] at scanned
    rw [scanned]
    exact congrArg some (List.append_nil _)
  have sameTokens : tokens first = tokens second := by
    apply Option.some.inj
    rw [← isScanned, same, isScanned]
  rw [← List.append_nil (tokens first), ← List.append_nil (tokens second)] at sameTokens
  exact (eq_of_tokens_append first second sameTokens).1

/-- Text on one line determines the value. -/
theorem compact_inj {first second : Data} : compact first = compact second ↔ first = second := by
  constructor
  · intro same
    exact write_inj (String.ofList_injective same)
  · rintro rfl
    rfl

/-- And so does text on several lines. -/
theorem indented_inj {first second : Data} :
    indented first = indented second ↔ first = second := by
  constructor
  · intro same
    exact write_inj (String.ofList_injective same)
  · rintro rfl
    rfl

end Json

end MenuPlan

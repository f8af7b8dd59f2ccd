/-
# Literals

A literal of JSON text in its parts: digits before the point, digits after it and an exponent. The
reader takes it apart into these parts again, and it is a single word that is none of the names.
-/

import Mathlib
import MenuPlan.Json.Reader
import MenuPlan.Proofs.Json.Scaled
import MenuPlan.Proofs.Json.Scanning
import MenuPlan.Proofs.Number.Decimal

namespace MenuPlan.Json

/-- The parts of an unsigned literal. -/
structure Literal where
  whole : List Char
  fraction : List Char
  exponent : Option Int
  nonempty : whole ≠ []
  isWhole : ∀ c ∈ whole, c.isDigit = true
  /-- A leading zero stands alone. -/
  leading : whole.head? = some '0' → whole.length = 1
  isFraction : ∀ c ∈ fraction, c.isDigit = true

namespace Literal

/-- The point and the digits after it, if there are any. -/
def fractionText : List Char → List Char
  | [] => []
  | digits => '.' :: digits

/-- An exponent is always written with its sign. -/
def exponentText : Option Int → List Char
  | none => []
  | some exponent =>
      'e' :: (if 0 ≤ exponent then '+' else '-') :: decimalDigits exponent.natAbs

/-- The literal as it is written. -/
def text (l : Literal) : List Char :=
  l.whole ++ (fractionText l.fraction ++ exponentText l.exponent)

/-- The literal behind the sign of a negative number. -/
def signed (l : Literal) (negative : Bool) : List Char :=
  (if negative then ['-'] else []) ++ l.text

/-- The significand and power of ten that a reader makes of the literal. -/
def scaled (l : Literal) : Scaled :=
  let digits := Scaled.ofDigits l.whole l.fraction
  { digits with exponent := digits.exponent + l.exponent.getD 0 }

/-- The decimal that the literal writes, with all its digits. -/
def decimal (l : Literal) : Decimal where
  digits := Nat.ofDigitChars 10 (l.whole ++ l.fraction) 0
  exponent := l.exponent.getD 0 - l.fraction.length

theorem natural?_decimalDigits (n : Nat) : natural? (decimalDigits n) = some n := by
  have allDigits : (decimalDigits n).all Char.isDigit = true :=
    List.all_eq_true.mpr fun _ member => isDigit_of_mem_decimalDigits member
  have wellFormed : ¬ ((decimalDigits n).isEmpty = true ∨
      ¬ (decimalDigits n).all Char.isDigit = true) := by
    rw [List.isEmpty_iff, allDigits]
    simp [decimalDigits_ne_nil]
  rw [natural?, if_neg wellFormed, Scaled.foldl_digitValue, ofDigitChars_decimalDigits]

theorem exponent?_exponentText (exponent : Int) :
    exponent? (exponentText (some exponent)) = some exponent := by
  rw [exponentText]
  by_cases upwards : 0 ≤ exponent
  · rw [if_pos upwards]
    show (natural? (decimalDigits exponent.natAbs)).map Int.ofNat = some exponent
    rw [natural?_decimalDigits]
    exact congrArg some (Int.natAbs_of_nonneg upwards)
  · rw [if_neg upwards]
    rw [exponent?, natural?_decimalDigits]
    show some (-(exponent.natAbs : Int)) = some exponent
    congr 1
    omega

/-- What follows digits does not go on with a digit. -/
theorem takeWhile_digits {digits rest : List Char} (isDigits : ∀ c ∈ digits, c.isDigit = true)
    (ends : ∀ c ∈ rest.head?, c.isDigit = false) :
    (digits ++ rest).takeWhile Char.isDigit = digits ∧
      (digits ++ rest).dropWhile Char.isDigit = rest := by
  rw [List.takeWhile_append_of_pos isDigits, List.dropWhile_append_of_pos isDigits]
  cases rest with
  | nil => simp
  | cons c rest =>
      have isEnd : c.isDigit = false := ends c rfl
      simp [isEnd]

theorem exponentText_ends (exponent : Option Int) :
    ∀ c ∈ (exponentText exponent).head?, c.isDigit = false := by
  cases exponent with
  | none => simp [exponentText]
  | some exponent => simp [exponentText]

theorem exponentText_noPoint (exponent : Option Int) :
    (exponentText exponent).head? ≠ some '.' := by
  cases exponent with
  | none => simp [exponentText]
  | some exponent => simp [exponentText]

/-- The digits before the point end where the rest begins. -/
theorem rest_ends (l : Literal) :
    ∀ c ∈ (fractionText l.fraction ++ exponentText l.exponent).head?, c.isDigit = false := by
  cases l.fraction with
  | nil => exact exponentText_ends l.exponent
  | cons c fraction => simp [fractionText]

theorem fraction?_fractionText {fraction rest : List Char}
    (isFraction : ∀ c ∈ fraction, c.isDigit = true) (ends : ∀ c ∈ rest.head?, c.isDigit = false)
    (noPoint : rest.head? ≠ some '.') :
    fraction? (fractionText fraction ++ rest) = some (fraction, rest) := by
  cases fraction with
  | nil =>
      cases rest with
      | nil => rfl
      | cons c rest =>
          have different : c ≠ '.' := fun same => noPoint (congrArg some same)
          simp [fractionText, fraction?, different]
  | cons c fraction =>
      obtain ⟨isTaken, isLeft⟩ := takeWhile_digits isFraction ends
      show (if ((c :: fraction ++ rest).takeWhile Char.isDigit).isEmpty = true then none
        else some ((c :: fraction ++ rest).takeWhile Char.isDigit,
          (c :: fraction ++ rest).dropWhile Char.isDigit)) = _
      rw [isTaken, isLeft]
      rfl

/-- The digits before the point pass the reader's check. -/
theorem wellFormed (l : Literal) :
    ¬ (l.whole.isEmpty = true ∨ 1 < l.whole.length ∧ l.whole.head? = some '0') := by
  rintro (empty | ⟨long, zero⟩)
  · exact l.nonempty (List.isEmpty_iff.mp empty)
  · exact absurd (l.leading zero) (Nat.ne_of_gt long)

/-- A literal that is a whole number is read as one. -/
theorem unsigned?_whole (l : Literal) (negative : Bool) (noFraction : l.fraction = [])
    (noExponent : l.exponent = none) :
    unsigned? negative l.text = wholeNumber? negative l.whole := by
  obtain ⟨isTaken, isLeft⟩ := takeWhile_digits l.isWhole (exponentText_ends none)
  rw [unsigned?, text, noFraction, noExponent, fractionText, List.nil_append, isTaken, isLeft]
  dsimp only
  rw [if_neg l.wellFormed]
  rfl

/-- A literal that is more than a whole number is read as a significand and a power of ten. -/
theorem unsigned?_text (l : Literal) (negative : Bool)
    (more : l.fraction ≠ [] ∨ l.exponent.isSome = true) :
    unsigned? negative l.text = (l.scaled.toBinary64? negative).map .real := by
  have restNonempty : (fractionText l.fraction ++ exponentText l.exponent).isEmpty = false := by
    rcases more with hasFraction | hasExponent
    · cases isFraction : l.fraction with
      | nil => exact absurd isFraction hasFraction
      | cons c fraction => rfl
    · obtain ⟨exponent, isExponent⟩ := Option.isSome_iff_exists.mp hasExponent
      rw [isExponent]
      cases l.fraction with
      | nil => rfl
      | cons c fraction => rfl
  obtain ⟨isTaken, isLeft⟩ := takeWhile_digits l.isWhole l.rest_ends
  rw [unsigned?, text, isTaken, isLeft]
  dsimp only
  rw [if_neg l.wellFormed, restNonempty, fraction?_fractionText l.isFraction
    (exponentText_ends l.exponent) (exponentText_noPoint l.exponent)]
  rw [scaled]
  cases l.exponent with
  | none => rfl
  | some exponent =>
      show (exponent? (exponentText (some exponent))).bind _ = _
      rw [exponent?_exponentText]
      rfl

/-- A literal starts with a digit. -/
theorem exists_digit_cons (l : Literal) : ∃ c rest, l.text = c :: rest ∧ c.isDigit = true := by
  obtain ⟨c, rest, isWhole⟩ := List.exists_cons_of_ne_nil l.nonempty
  refine ⟨c, rest ++ (fractionText l.fraction ++ exponentText l.exponent), ?_, ?_⟩
  · rw [text, isWhole, List.cons_append]
  · exact l.isWhole c (isWhole ▸ List.mem_cons_self)

theorem number?_signed (l : Literal) (negative : Bool) :
    number? (l.signed negative) = unsigned? negative l.text := by
  cases negative with
  | true => rfl
  | false =>
      obtain ⟨c, rest, isText, isDigit⟩ := l.exists_digit_cons
      have unsigned : c ≠ '-' := by
        rintro rfl
        cases isDigit
      show number? l.text = unsigned? false l.text
      rw [isText]
      simp [number?, unsigned]

/-- An exponent is determined by its text. -/
theorem exponentText_inj {first second : Option Int}
    (same : exponentText first = exponentText second) : first = second := by
  cases first with
  | none =>
      cases second with
      | none => rfl
      | some exponent => cases same
  | some exponent =>
      cases second with
      | none => cases same
      | some other => rw [← exponent?_exponentText, same, exponent?_exponentText]

/-- A literal is determined by its text. -/
theorem text_inj {first second : Literal} (same : first.text = second.text) :
    first.whole = second.whole ∧ first.fraction = second.fraction ∧
      first.exponent = second.exponent := by
  obtain ⟨isWhole, isRest⟩ := takeWhile_digits first.isWhole first.rest_ends
  obtain ⟨isOtherWhole, isOtherRest⟩ := takeWhile_digits second.isWhole second.rest_ends
  have fraction := fraction?_fractionText first.isFraction (exponentText_ends first.exponent)
    (exponentText_noPoint first.exponent)
  have otherFraction := fraction?_fractionText second.isFraction
    (exponentText_ends second.exponent) (exponentText_noPoint second.exponent)
  rw [text, text] at same
  rw [same, isOtherWhole] at isWhole
  rw [same, isOtherRest] at isRest
  rw [← isRest, otherFraction, Option.some_inj, Prod.mk.injEq] at fraction
  exact ⟨isWhole.symm, fraction.1.symm, exponentText_inj fraction.2.symm⟩

/-- A sign is no digit, so it is determined by the text as well. -/
theorem signed_inj {first second : Literal} {negative other : Bool}
    (same : first.signed negative = second.signed other) :
    negative = other ∧ first.text = second.text := by
  obtain ⟨c, rest, isText, isDigit⟩ := first.exists_digit_cons
  obtain ⟨d, otherRest, isOther, isOtherDigit⟩ := second.exists_digit_cons
  rw [signed, signed, isText, isOther] at same
  cases negative with
  | true =>
      cases other with
      | true => exact ⟨rfl, by rw [isText, isOther]; exact List.append_cancel_left same⟩
      | false =>
          cases same
          cases isOtherDigit
  | false =>
      cases other with
      | true =>
          cases same
          cases isDigit
      | false => exact ⟨rfl, by rw [isText, isOther]; exact same⟩

theorem isWordChar_of_isDigit {c : Char} (isDigit : c.isDigit = true) :
    Token.isWordChar c = true := by
  have different : ∀ d : Char, d.isDigit = false → c ≠ d := by
    rintro d noDigit rfl
    rw [isDigit] at noDigit
    cases noDigit
  have noPunctuation : Token.ofPunctuation? c = none := by
    unfold Token.ofPunctuation?
    split
    case h_7 => rfl
    all_goals cases isDigit
  simp [Token.isWordChar, Token.isBlank, noPunctuation, different '"' rfl, different ' ' rfl,
    different '\n' rfl, different '\t' rfl, different '\r' rfl]

theorem isWordChar_of_mem_signed (l : Literal) (negative : Bool) :
    ∀ c ∈ l.signed negative, Token.isWordChar c = true := by
  have sign : ∀ c ∈ (if negative then ['-'] else []), Token.isWordChar c = true := by
    cases negative with
    | true => simp [Token.isWordChar, Token.isBlank, Token.ofPunctuation?]
    | false => exact List.forall_mem_nil _
  have fraction : ∀ c ∈ fractionText l.fraction, Token.isWordChar c = true := by
    have digits := l.isFraction
    generalize l.fraction = fraction at digits ⊢
    cases fraction with
    | nil => exact List.forall_mem_nil _
    | cons first rest =>
        refine List.forall_mem_cons.mpr ⟨rfl, ?_⟩
        intro c member
        exact isWordChar_of_isDigit (digits c member)
  have exponent : ∀ c ∈ exponentText l.exponent, Token.isWordChar c = true := by
    cases l.exponent with
    | none => exact List.forall_mem_nil _
    | some exponent =>
        refine List.forall_mem_cons.mpr ⟨rfl, List.forall_mem_cons.mpr ⟨?_, ?_⟩⟩
        · split_ifs
          · rfl
          · rfl
        · intro c member
          exact isWordChar_of_isDigit (isDigit_of_mem_decimalDigits member)
  have whole : ∀ c ∈ l.whole, Token.isWordChar c = true := by
    intro c member
    exact isWordChar_of_isDigit (l.isWhole c member)
  exact List.forall_mem_append.mpr ⟨sign, List.forall_mem_append.mpr
    ⟨whole, List.forall_mem_append.mpr ⟨fraction, exponent⟩⟩⟩

theorem signed_ne_nil (l : Literal) (negative : Bool) : l.signed negative ≠ [] := by
  obtain ⟨c, rest, isText, -⟩ := l.exists_digit_cons
  rw [signed, isText]
  simp

/-- The word of a literal is none of the names. -/
theorem scalar?_signed (l : Literal) (negative : Bool) :
    scalar? (l.signed negative) = (number? (l.signed negative)).map .number := by
  have head : ∀ c ∈ (l.signed negative).head?, c.isDigit = true ∨ c = '-' := by
    obtain ⟨c, rest, isText, isDigit⟩ := l.exists_digit_cons
    rw [signed, isText]
    cases negative with
    | true => simp
    | false => simpa using Or.inl isDigit
  have noName : ∀ c rest, c.isDigit = false → c ≠ '-' → l.signed negative ≠ c :: rest := by
    intro c rest noDigit noSign same
    rw [same] at head
    rcases head c rfl with isDigit | isSign
    · rw [isDigit] at noDigit
      cases noDigit
    · exact noSign isSign
  rw [scalar?, if_neg (noName 'n' _ rfl (by decide)), if_neg (noName 't' _ rfl (by decide)),
    if_neg (noName 'f' _ rfl (by decide))]

end Literal

end MenuPlan.Json

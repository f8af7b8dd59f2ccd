/-
# Words with one value

A portable word has the same value for both readers. The reader of YAML tries an integer first and
then a decimal, each on the whole word; a number that is spelled with a fraction or an exponent has
a character that no integer has, and the decimal is then taken apart into the same parts that the
reader of JSON finds.
-/

import MenuPlan.Proofs.Portable.Spelling
import MenuPlan.Yaml.Scalar

namespace MenuPlan

/- Powers are those of the core library, as in the definitions. -/
attribute [local instance (2000)] instPowNat

namespace Yaml

/-- A decimal digit has its value in every base. -/
theorem hexValue?_of_isDigit {c : Char} (isDigit : c.isDigit = true) :
    Json.hexValue? c = some (c.toNat - '0'.toNat) := by
  have range : '0' ≤ c ∧ c ≤ '9' := by
    simpa [Char.isDigit, Char.le_def] using isDigit
  rw [Json.hexValue?, if_pos range]

/-- What has a value below ten is a decimal digit. -/
theorem isDigit_of_hexValue? {c : Char} {digit : Nat} (isValue : Json.hexValue? c = some digit)
    (small : digit < 10) : c.isDigit = true := by
  rw [Json.hexValue?] at isValue
  split_ifs at isValue with range
  · simpa [Char.isDigit, Char.le_def] using range
  · cases isValue
    omega
  · cases isValue
    omega

/-- A step of reading decimal digits. -/
def addDigit (n : Nat) (c : Char) : Option Nat :=
  match Json.hexValue? c with
  | some digit => if digit < 10 then some (n * 10 + digit) else none
  | none => none

/-- Decimal digits are read one by one. -/
theorem digits?_ten_eq {text : List Char} (nonempty : text ≠ []) :
    digits? 10 text = text.foldlM addDigit 0 := by
  rw [digits?, if_neg (by rwa [List.isEmpty_iff])]
  rfl

theorem addDigit_of_isDigit (n : Nat) {c : Char} (isDigit : c.isDigit = true) :
    addDigit n c = some (10 * n + (c.toNat - '0'.toNat)) := by
  have small := Json.Scaled.digitValue_lt isDigit
  rw [Json.Scaled.digitValue] at small
  rw [addDigit, hexValue?_of_isDigit isDigit]
  dsimp only
  rw [if_pos small, Nat.mul_comm]

theorem isDigit_of_addDigit {n m : Nat} {c : Char} (isAdded : addDigit n c = some m) :
    c.isDigit = true := by
  rw [addDigit] at isAdded
  split at isAdded
  case h_2 => cases isAdded
  case h_1 digit isValue =>
    split_ifs at isAdded with small
    exact isDigit_of_hexValue? isValue small

/-- Decimal digits write the number that the standard library reads. -/
theorem digits?_ten {digits : List Char} (nonempty : digits ≠ [])
    (isDigits : ∀ c ∈ digits, c.isDigit = true) :
    digits? 10 digits = some (Nat.ofDigitChars 10 digits 0) := by
  rw [digits?_ten_eq nonempty]
  clear nonempty
  generalize 0 = n
  induction digits generalizing n with
  | nil => rfl
  | cons c rest ih =>
      obtain ⟨isDigit, isRest⟩ := List.forall_mem_cons.mp isDigits
      rw [List.foldlM_cons, addDigit_of_isDigit n isDigit, Nat.ofDigitChars_cons, ← ih isRest]
      rfl

/-- Only decimal digits are read in base ten. -/
theorem isDigit_of_digits?_ten {text : List Char} {result : Nat}
    (isRead : digits? 10 text = some result) : ∀ c ∈ text, c.isDigit = true := by
  cases text with
  | nil => exact List.forall_mem_nil _
  | cons first more =>
      rw [digits?_ten_eq (List.cons_ne_nil _ _)] at isRead
      generalize first :: more = text at isRead ⊢
      generalize 0 = n at isRead
      induction text generalizing n with
      | nil => exact List.forall_mem_nil _
      | cons c rest ih =>
          obtain ⟨next, isAdded, isRest⟩ := Option.bind_eq_some_iff.mp isRead
          exact List.forall_mem_cons.mpr ⟨isDigit_of_addDigit isAdded, ih next isRest⟩

end Yaml

namespace Portable

open Json (Token)

/-- An exponent begins with its letter. -/
theorem SpellsExponent.head {scale : List Char} {exponent : Int}
    (isExponent : SpellsExponent scale exponent) :
    ∀ c ∈ scale.head?, c.isDigit = false ∧ c ≠ '.' := by
  have isMarker : ∀ {letter : Char}, letter = 'e' ∨ letter = 'E' →
      letter.isDigit = false ∧ letter ≠ '.' := by
    rintro _ (rfl | rfl)
    · decide
    · decide
  cases isExponent with
  | absent => exact nofun
  | unsigned isE _ _ | positive isE _ _ | negative isE _ _ =>
      rintro _ ⟨⟩
      exact isMarker isE

/-- An exponent is read as it is spelled. -/
theorem SpellsExponent.exponent? {scale : List Char} {exponent : Int}
    (isExponent : SpellsExponent scale exponent) : Yaml.exponent? scale = some exponent := by
  cases isExponent with
  | absent => rfl
  | @unsigned _ digits isE nonempty isDigits =>
      rw [Yaml.exponent?, if_pos isE, Yaml.digits?_ten nonempty isDigits]
      · rfl
      · rintro _ rfl
        cases isDigits '-' List.mem_cons_self
      · rintro _ rfl
        cases isDigits '+' List.mem_cons_self
  | positive isE nonempty isDigits =>
      rw [Yaml.exponent?, if_pos isE, Yaml.digits?_ten nonempty isDigits]
      rfl
  | negative isE nonempty isDigits =>
      rw [Yaml.exponent?, if_pos isE, Yaml.digits?_ten nonempty isDigits]
      rfl

namespace Numeral

variable (n : Numeral)

/-- The digits before the point end where the tail begins. -/
theorem tail_head : ∀ c ∈ n.tail.head?, c.isDigit = false := by
  rw [tail]
  cases n.fraction with
  | nil => exact fun c member => (n.isExponent.head c member).1
  | cons first rest =>
      rintro _ ⟨⟩
      rfl

/-- A number is cut where its tail begins. -/
theorem cut_unsigned : n.unsigned.takeWhile Char.isDigit = n.whole ∧
    n.unsigned.dropWhile Char.isDigit = n.tail :=
  Json.Literal.takeWhile_digits n.isWhole n.tail_head

/-- A number with a tail is not whole. -/
theorem tail_eq_nil_iff : n.tail = [] ↔ n.IsWhole := by
  rw [tail, List.append_eq_nil_iff, IsWhole]
  cases n.fraction with
  | nil => exact Iff.rfl
  | cons first rest =>
      exact iff_of_false (fun same => nomatch same.1) (fun same => nomatch same.1)

/-- A number that is not whole has a character that is no digit. -/
theorem exists_noDigit (notWhole : ¬ n.IsWhole) : ∃ c ∈ n.unsigned, c.isDigit = false := by
  rw [← n.tail_eq_nil_iff] at notWhole
  obtain ⟨c, rest, isTail⟩ := List.exists_cons_of_ne_nil notWhole
  refine ⟨c, ?_, n.tail_head c (by rw [isTail]; rfl)⟩
  rw [unsigned, isTail]
  exact List.mem_append_right _ List.mem_cons_self

/-- All characters of a whole number are digits. -/
theorem unsigned_of_isWhole (isWhole : n.IsWhole) : n.unsigned = n.whole := by
  rw [unsigned, tail, isWhole.1, isWhole.2]
  exact List.append_nil _

/-- The digits of a whole number. -/
theorem digits_of_isWhole (isWhole : n.IsWhole) : n.digits = Nat.ofDigitChars 10 n.whole 0 := by
  rw [digits, isWhole.1, List.append_nil]

/-! ## The reader of JSON -/

/-- The sign is read first. -/
theorem number?_text : Json.number? n.text = Json.unsigned? n.negative n.unsigned := by
  obtain ⟨c, rest, isUnsigned, isDigit⟩ := n.exists_unsigned_eq_cons
  rw [text, isUnsigned]
  cases n.negative with
  | true => rfl
  | false =>
      have unsigned : c ≠ '-' := by
        rintro rfl
        cases isDigit
      show Json.number? (c :: rest) = _
      simp [Json.number?, unsigned]

/-- A word that begins like a number is none of the names. -/
theorem scalar?_text : Json.scalar? n.text = (Json.number? n.text).map .number := by
  obtain ⟨c, rest, isUnsigned, isDigit⟩ := n.exists_unsigned_eq_cons
  have head : ∀ c ∈ n.text.head?, c.isDigit = true ∨ c = '-' := by
    rw [text, isUnsigned]
    cases n.negative with
    | true => simp
    | false => simpa using Or.inl isDigit
  have noName : ∀ c rest, c.isDigit = false → c ≠ '-' → n.text ≠ c :: rest := by
    intro c rest noDigit noSign same
    rw [same] at head
    rcases head c rfl with isDigit | isSign
    · rw [isDigit] at noDigit
      cases noDigit
    · exact noSign isSign
  rw [Json.scalar?, if_neg (noName 'n' _ rfl (by decide)), if_neg (noName 't' _ rfl (by decide)),
    if_neg (noName 'f' _ rfl (by decide))]

/-- What is made of the parts of a number that is read. -/
theorem number?_eq_some {number : Number} (isRead : Json.number? n.text = some number) :
    (n.whole.head? = some '0' → n.whole.length = 1) ∧
      (n.IsWhole → Json.wholeNumber? n.negative n.whole = some number) ∧
      (¬ n.IsWhole → ∃ x, number = .real x) := by
  rw [number?_text, Json.unsigned?, n.cut_unsigned.1, n.cut_unsigned.2] at isRead
  dsimp only at isRead
  have leading : ¬ (n.whole.isEmpty = true ∨ 1 < n.whole.length ∧ n.whole.head? = some '0') →
      n.whole.head? = some '0' → n.whole.length = 1 := by
    intro accepted zero
    have nonempty := List.length_pos_iff.mpr n.nonempty
    have short : ¬ 1 < n.whole.length := fun long => accepted (.inr ⟨long, zero⟩)
    omega
  split_ifs at isRead with refused noTail
  · rw [List.isEmpty_iff, n.tail_eq_nil_iff] at noTail
    exact ⟨leading refused, fun _ => isRead, fun notWhole => absurd noTail notWhole⟩
  · rw [List.isEmpty_iff, n.tail_eq_nil_iff] at noTail
    obtain ⟨parts, -, isRead⟩ := Option.bind_eq_some_iff.mp isRead
    have isScaled : ∃ scaled : Json.Scaled,
        (scaled.toBinary64? n.negative).map .real = some number := by
      split_ifs at isRead
      · exact ⟨_, isRead⟩
      · obtain ⟨exponent, -, isRead⟩ := Option.bind_eq_some_iff.mp isRead
        exact ⟨_, isRead⟩
    obtain ⟨scaled, isScaled⟩ := isScaled
    obtain ⟨x, -, isReal⟩ := Option.map_eq_some_iff.mp isScaled
    exact ⟨leading refused, fun isWhole => absurd isWhole noTail, fun _ => ⟨x, isReal.symm⟩⟩

/-- An integer that documents can hold fits 128 bits. -/
theorem fitsWide_of_inRange {value : Int} (inRange : InRange value) : Yaml.FitsWide value := by
  rw [InRange] at inRange
  rw [Yaml.FitsWide]
  omega

/-- A portable integer is read as itself. -/
theorem number?_of_isInteger (portable : n.IsPortable) (isInteger : n.IsInteger) {number : Number}
    (isRead : Json.number? n.text = some number) :
    ∃ inRange, number = .int n.integer inRange := by
  obtain ⟨inRange, notNegativeZero⟩ := portable.integer isInteger
  have isNumber := (n.number?_eq_some isRead).2.1 isInteger.1
  rw [Json.wholeNumber?, Json.Scaled.foldl_digitValue, ← n.digits_of_isWhole isInteger.1,
    if_neg notNegativeZero, ← integer, Number.ofInt?, dif_pos inRange] at isNumber
  exact ⟨inRange, (Option.some.inj isNumber).symm⟩

/-- Any other number is read as a binary64 number. -/
theorem number?_of_not_isInteger (notInteger : ¬ n.IsInteger) {number : Number}
    (isRead : Json.number? n.text = some number) : ∃ x, number = .real x := by
  by_cases isWhole : n.IsWhole
  · have isWide : ¬ Yaml.FitsWide n.integer := fun fits => notInteger ⟨isWhole, fits⟩
    have notZero : ¬ (n.negative = true ∧ n.digits = 0) := by
      rintro ⟨-, isZero⟩
      refine isWide ?_
      rw [integer, isZero]
      split_ifs <;> decide
    have outOfRange : ¬ InRange n.integer := fun inRange => isWide (fitsWide_of_inRange inRange)
    have isNumber := (n.number?_eq_some isRead).2.1 isWhole
    rw [Json.wholeNumber?, Json.Scaled.foldl_digitValue, ← n.digits_of_isWhole isWhole,
      if_neg notZero, ← integer, Number.ofInt?, dif_neg outOfRange] at isNumber
    obtain ⟨x, -, isReal⟩ := Option.map_eq_some_iff.mp isNumber
    exact ⟨x, isReal.symm⟩
  · exact (n.number?_eq_some isRead).2.2 isWhole

/-! ## The reader of YAML -/

/-- No letter of another base. -/
theorem markedDigits?_eq_none : Yaml.markedDigits? n.unsigned = none := by
  have noMark : ∀ mark ∈ ['x', 'o', 'b'], ¬ ['0', mark].isPrefixOf n.unsigned = true := by
    intro mark isMark isPrefix
    rw [List.isPrefixOf_iff_prefix] at isPrefix
    have member := isPrefix.subset (List.mem_cons_of_mem _ List.mem_cons_self : mark ∈ ['0', mark])
    rcases n.isNumeric mark member with isDigit | isSign
    · fin_cases isMark <;> cases isDigit
    · fin_cases isMark <;> simp at isSign
  rw [Yaml.markedDigits?, Yaml.after?, Yaml.after?, Yaml.after?, if_neg (noMark 'x' (by decide)),
    if_neg (noMark 'o' (by decide)), if_neg (noMark 'b' (by decide))]
  rfl

/-- A number begins with its sign, or with a digit. -/
theorem exists_text_eq (n : Numeral) :
    (n.negative = true ∧ n.text = '-' :: n.unsigned) ∨
      (n.negative = false ∧ ∃ c rest, n.text = c :: rest ∧ n.unsigned = c :: rest ∧
        c.isDigit = true ∧ c ≠ '-' ∧ c ≠ '+') := by
  cases isNegative : n.negative with
  | true =>
      left
      rw [text, isNegative]
      exact ⟨rfl, rfl⟩
  | false =>
      right
      obtain ⟨c, rest, isUnsigned, isDigit⟩ := n.exists_unsigned_eq_cons
      refine ⟨rfl, c, rest, ?_, isUnsigned, isDigit, ?_, ?_⟩
      · rw [text, isNegative, isUnsigned]
        rfl
      · rintro rfl
        cases isDigit
      · rintro rfl
        cases isDigit

/-- The sign, if there is one, comes off. -/
theorem unsigned_eq : (if Yaml.atSign n.text then n.text.tail else n.text) = n.unsigned := by
  rcases n.exists_text_eq with ⟨-, isText⟩ | ⟨-, c, rest, isText, isUnsigned, -, noMinus, noPlus⟩
  · rw [isText]
    rfl
  · have noSign : Yaml.atSign (c :: rest) = false := by
      simp [Yaml.atSign, noMinus, noPlus]
    rw [isText, noSign, isUnsigned]
    rfl

/-- The magnitude of an integer gets its sign. -/
theorem integer?_text : Yaml.integer? n.text =
    (Yaml.magnitude? n.text n.unsigned).map fun magnitude : Nat =>
      if n.negative then -(magnitude : Int) else (magnitude : Int) := by
  rcases n.exists_text_eq with
    ⟨isNegative, isText⟩ | ⟨isPositive, c, rest, isText, isUnsigned, -, noMinus, noPlus⟩
  · rw [isText, isNegative, Yaml.integer?]
    cases Yaml.magnitude? ('-' :: n.unsigned) n.unsigned <;> rfl
  · rw [isText, isPositive, isUnsigned, Yaml.integer?]
    · rfl
    · intro _ isMinus
      cases isMinus
      exact noMinus rfl
    · intro _ isPlus
      cases isPlus
      exact noPlus rfl

/-- A number without an idle zero in front has none for the reader of YAML. -/
theorem hasLeadingZero_text (leading : n.whole.head? = some '0' → n.whole.length = 1) :
    Yaml.hasLeadingZero n.text = false := by
  obtain ⟨first, more, isWhole⟩ := List.exists_cons_of_ne_nil n.nonempty
  rw [Yaml.hasLeadingZero, n.unsigned_eq, unsigned, isWhole, List.cons_append]
  split
  case h_2 => rfl
  case h_1 second rest isZero =>
    -- Behind a zero that stands alone comes the tail, which begins with no digit.
    obtain ⟨rfl, isRest⟩ := List.cons.inj isZero
    rw [isWhole] at leading
    have alone : more = [] := List.eq_nil_of_length_eq_zero (Nat.succ.inj (leading rfl))
    have noDigit := n.tail_head second (by rw [alone, List.nil_append] at isRest; rw [isRest]; rfl)
    rw [List.all_cons, noDigit, Bool.false_and]

/-- An integer of any size is the same integer. -/
theorem integer?_of_isWhole (isWhole : n.IsWhole)
    (leading : n.whole.head? = some '0' → n.whole.length = 1) :
    Yaml.integer? n.text = some n.integer := by
  rw [integer?_text, Yaml.magnitude?, markedDigits?_eq_none, hasLeadingZero_text n leading,
    n.unsigned_of_isWhole isWhole, Yaml.digits?_ten n.nonempty n.isWhole,
    ← n.digits_of_isWhole isWhole]
  rfl

/-- A number with a fraction or an exponent is no integer. -/
theorem integer?_of_not_isWhole (notWhole : ¬ n.IsWhole) : Yaml.integer? n.text = none := by
  obtain ⟨c, member, noDigit⟩ := n.exists_noDigit notWhole
  have noDigits : Yaml.digits? 10 n.unsigned = none := by
    by_contra isRead
    obtain ⟨result, isRead⟩ := Option.ne_none_iff_exists'.mp isRead
    rw [Yaml.isDigit_of_digits?_ten isRead c member] at noDigit
    cases noDigit
  rw [integer?_text, Yaml.magnitude?, markedDigits?_eq_none, noDigits, ite_self]
  rfl

/-- Only an integer that fits 128 bits is one. -/
theorem filter_integer?_text (leading : n.whole.head? = some '0' → n.whole.length = 1) :
    (n.IsInteger → (Yaml.integer? n.text).filter (fun m => decide (Yaml.FitsWide m)) =
        some n.integer) ∧
      (¬ n.IsInteger →
        (Yaml.integer? n.text).filter (fun m => decide (Yaml.FitsWide m)) = none) := by
  by_cases isWhole : n.IsWhole
  · rw [n.integer?_of_isWhole isWhole leading]
    exact ⟨fun isInteger => if_pos (decide_eq_true isInteger.2),
      fun notInteger => if_neg fun fits => notInteger ⟨isWhole, of_decide_eq_true fits⟩⟩
  · rw [n.integer?_of_not_isWhole isWhole]
    exact ⟨fun isInteger => absurd isInteger.1 isWhole, fun _ => rfl⟩

/-- What follows the point, and what comes instead. -/
theorem after?_tail : Yaml.after? ['.'] n.tail =
    if n.fraction = [] then none else some (n.fraction ++ n.scale) := by
  have head := n.isExponent.head
  rw [tail, Yaml.after?]
  cases n.fraction with
  | cons first rest => rfl
  | nil =>
      rw [Json.Literal.fractionText, List.nil_append, if_pos rfl]
      apply if_neg
      intro isPrefix
      obtain ⟨rest, isScale⟩ := List.isPrefixOf_iff_prefix.mp isPrefix
      rw [← isScale] at head
      exact (head '.' rfl).2 rfl

/-- A decimal is taken apart as it is spelled. -/
theorem decimal?_unsigned (negative : Bool) :
    Yaml.decimal? negative n.unsigned = Binary64.ofDecimal negative n.digits n.power := by
  obtain ⟨isFractionTaken, isScaleLeft⟩ := Json.Literal.takeWhile_digits n.isFraction
    fun c member => (n.isExponent.head c member).1
  have isDigits : Yaml.digits? 10 (n.whole ++ n.fraction) = some n.digits :=
    Yaml.digits?_ten (List.append_ne_nil_of_left_ne_nil n.nonempty _)
      (List.forall_mem_append.mpr ⟨n.isWhole, n.isFraction⟩)
  have isExponent := n.isExponent.exponent?
  have afterPoint := n.after?_tail
  rw [Yaml.decimal?, n.cut_unsigned.1, n.cut_unsigned.2]
  by_cases noFraction : n.fraction = []
  · have isScale : n.tail = n.scale := by
      rw [tail, noFraction]
      rfl
    rw [if_pos noFraction, isScale] at afterPoint
    rw [noFraction] at isDigits
    simp only [afterPoint, Option.getD_none, List.takeWhile_nil, Option.elim_none, isDigits,
      isScale, isExponent, power, noFraction]
    rfl
  · rw [if_neg noFraction] at afterPoint
    simp only [afterPoint, Option.getD_some, Option.elim_some, isFractionTaken, isScaleLeft,
      isDigits, isExponent, power]
    rfl

/-- Texts that do not begin like a number. -/
def AreNames (names : List String) : Prop :=
  ∀ name ∈ names, ∃ c ∈ name.toList.head?, c.isDigit = false ∧ c ≠ '-'

/-- No number is one of them. -/
theorem not_mem_names {names : List String} (areNames : AreNames names) :
    String.ofList n.text ∉ names ∧ String.ofList n.unsigned ∉ names := by
  obtain ⟨c, rest, isUnsigned, isDigit⟩ := n.exists_unsigned_eq_cons
  constructor
  · intro member
    obtain ⟨d, isHead, noDigit, noMinus⟩ := areNames _ member
    rw [String.toList_ofList] at isHead
    rcases n.exists_text_eq with ⟨-, isText⟩ | ⟨-, d, rest, isText, -, isDigit, -⟩
    · rw [isText] at isHead
      cases isHead
      exact noMinus rfl
    · rw [isText] at isHead
      cases isHead
      rw [isDigit] at noDigit
      cases noDigit
  · intro member
    obtain ⟨d, isHead, noDigit, -⟩ := areNames _ member
    rw [String.toList_ofList, isUnsigned] at isHead
    cases isHead
    rw [isDigit] at noDigit
    cases noDigit

/-- A number is a decimal with the same parts. -/
theorem fractional?_text {x : Binary64}
    (isNearest : Binary64.ofDecimal n.negative n.digits n.power = some x) :
    Yaml.fractional? n.text = some (.finite x) := by
  have isNegative : decide (n.text.head? = some '-') = n.negative := by
    rcases n.exists_text_eq with
      ⟨isNegative, isText⟩ | ⟨isPositive, c, rest, isText, -, -, noMinus, -⟩
    · rw [isText, isNegative]
      rfl
    · rw [isText, isPositive, List.head?_cons]
      exact decide_eq_false fun same => noMinus (Option.some.inj same)
  have noInfinity : Yaml.infinities.contains (String.ofList n.unsigned) = false := by
    have areNames : AreNames Yaml.infinities := by
      simp [AreNames, Yaml.infinities]
    simpa using (n.not_mem_names areNames).2
  have isNumber : Yaml.notNumbers.contains (String.ofList n.text) = false := by
    have areNames : AreNames Yaml.notNumbers := by
      simp [AreNames, Yaml.notNumbers]
    simpa using (n.not_mem_names areNames).1
  rw [Yaml.fractional?, n.unsigned_eq, noInfinity, isNumber, isNegative, n.decimal?_unsigned,
    isNearest]
  rfl

/-- A number is no null. -/
theorem not_isNull :
    ¬ (String.ofList n.text = "" ∨ Yaml.isNull (String.ofList n.text) = true) := by
  rintro (isEmpty | isNull)
  · have noText : n.text = [] := by
      rw [← String.toList_ofList (l := n.text), isEmpty]
      rfl
    rcases n.exists_text_eq with ⟨-, isText⟩ | ⟨-, c, rest, isText, -⟩
    · cases isText.symm.trans noText
    · cases isText.symm.trans noText
  · have areNames : AreNames ["~", "null", "Null", "NULL"] := by
      simp [AreNames]
    exact (n.not_mem_names areNames).1 (List.contains_iff_mem.mp isNull)

/-- A number is no boolean. -/
theorem boolean?_text : Yaml.boolean? (String.ofList n.text) = none := by
  have noTrue : ["true", "True", "TRUE"].contains (String.ofList n.text) = false := by
    have areNames : AreNames ["true", "True", "TRUE"] := by
      simp [AreNames]
    simpa using (n.not_mem_names areNames).1
  have noFalse : ["false", "False", "FALSE"].contains (String.ofList n.text) = false := by
    have areNames : AreNames ["false", "False", "FALSE"] := by
      simp [AreNames]
    simpa using (n.not_mem_names areNames).1
  rw [Yaml.boolean?, noTrue, noFalse]
  rfl

/-- A portable number has the same value for both readers. -/
theorem plainValue?_text (portable : n.IsPortable) {number : Number}
    (isRead : Json.number? n.text = some number) :
    Yaml.plainValue? (String.ofList n.text) = some (.number number) := by
  have leading := (n.number?_eq_some isRead).1
  rw [Yaml.plainValue?, if_neg n.not_isNull, n.boolean?_text, String.toList_ofList]
  by_cases isInteger : n.IsInteger
  · obtain ⟨inRange, rfl⟩ := n.number?_of_isInteger portable isInteger isRead
    simp only [(n.filter_integer?_text leading).1 isInteger, Yaml.ofInteger?, Number.ofInt?,
      dif_pos inRange, Option.map_some]
  · obtain ⟨x, rfl⟩ := n.number?_of_not_isInteger isInteger isRead
    have isDecimal := n.fractional?_text (portable.real isInteger x isRead)
    simp only [(n.filter_integer?_text leading).2 isInteger, n.hasLeadingZero_text leading,
      isDecimal]
    rfl

end Numeral

/-- A portable word has the same value for both readers. -/
theorem SpellsWord.plainValue? {text : List Char} (isWord : SpellsWord text) {value : Data}
    (isScalar : Json.scalar? text = some value) :
    Yaml.plainValue? (String.ofList text) = some value := by
  cases isWord with
  | nameNull | nameTrue | nameFalse =>
      cases isScalar
      rfl
  | numeral n portable =>
      rw [n.scalar?_text] at isScalar
      obtain ⟨number, isRead, rfl⟩ := Option.map_eq_some_iff.mp isScalar
      exact n.plainValue?_text portable isRead

end Portable

end MenuPlan

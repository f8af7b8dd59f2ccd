/-
# What a plan tells about a value

A value of a configuration is resolved and then written into a plan. Two values can come out alike
in one way only: the expression `@x` is written as an object whose single key is `$expression`, and
so is the object that a configuration spells out like that. `canonical` settles on the expression,
from the inside out, and the main result is that this is all: values are written alike exactly if
their canonical forms are equal, member order included, and so are the texts of what is written.

The argument gives the writing an inverse. `fromPlan` reads the canonical form back from what is
written, so equal writing means equal canonical forms; and a value is written as its canonical form
is, so equal canonical forms mean equal writing.
-/

import Mathlib
import MenuPlan.Proofs.Json.Writing
import MenuPlan.Term

namespace MenuPlan

namespace Term

/-- The text begins with the marker. -/
def IsMarked (text : String) : Prop :=
  text.toList.head? = some marker

instance (text : String) : Decidable (IsMarked text) :=
  inferInstanceAs (Decidable (_ = _))

theorem isMarked_append (rest : String) : IsMarked ("@" ++ rest) := by
  rw [IsMarked, String.toList_append]
  rfl

/-- A marked text is the marker and a rest. -/
theorem isMarked_iff {text : String} : IsMarked text ↔ ∃ rest, text = "@" ++ rest := by
  constructor
  · intro marked
    obtain ⟨rest, isText⟩ := List.head?_eq_some_iff.mp marked
    refine ⟨String.ofList rest, String.toList_inj.mp ?_⟩
    rw [isText]
    simp [marker]
  · rintro ⟨rest, rfl⟩
    exact isMarked_append rest

/-- A text without the marker means itself. -/
theorem ofText_of_not_isMarked {text : String} (plain : ¬ IsMarked text) :
    ofText text = .literal (.string text) := by
  rw [IsMarked] at plain
  rw [ofText]
  cases isText : text.toList with
  | nil => rfl
  | cons first rest =>
      rw [isText, List.head?_cons] at plain
      exact if_pos fun same => plain (congrArg some same)

/-- What stands behind a marker is literal if it is marked itself, and an expression otherwise. -/
theorem ofText_append (rest : String) :
    ofText ("@" ++ rest) =
      if IsMarked rest then .literal (.string rest) else .expression rest := by
  have isText : ("@" ++ rest).toList = marker :: rest.toList := by
    rw [String.toList_append]
    rfl
  simp only [ofText, isText, String.ofList_toList, ne_eq, not_true_eq_false, if_false]
  rfl

end Term

namespace Data

open Term (IsMarked)

/-- How a value of a configuration is written into a plan. -/
def inPlan (value : Data) : Data :=
  (Term.ofData value).toData

/-- The source of the expression that an object with these members looks like: its only key is
`$expression`, and the value is a text without the marker. -/
def source? : List (String × Data) → Option String
  | [(name, .string text)] => if name = "$expression" ∧ ¬ IsMarked text then some text else none
  | _ => none

mutual

/-- The value with every object that looks like an expression, from the inside out, replaced by the
text that marks this expression. -/
def canonical : Data → Data
  | .array items => .array (canonicalItems items)
  | .object members =>
      match source? (canonicalMembers members) with
      | some source => .string ("@" ++ source)
      | none => .object (canonicalMembers members)
  | .null => .null
  | .bool b => .bool b
  | .number n => .number n
  | .string text => .string text

/-- The canonical form of each item. -/
def canonicalItems : List Data → List Data
  | [] => []
  | item :: rest => canonical item :: canonicalItems rest

/-- The canonical form of each member. -/
def canonicalMembers : List (String × Data) → List (String × Data)
  | [] => []
  | (name, value) :: rest => (name, canonical value) :: canonicalMembers rest

end

mutual

/-- The canonical form of a value, given how the value is written into a plan. -/
def fromPlan : Data → Data
  | .array items => .array (fromPlanItems items)
  | .object members =>
      match source? members with
      | some source => .string ("@" ++ source)
      | none => .object (fromPlanMembers members)
  | .null => .null
  | .bool b => .bool b
  | .number n => .number n
  | .string text => if IsMarked text then .string ("@" ++ text) else .string text

/-- The canonical forms of items. -/
def fromPlanItems : List Data → List Data
  | [] => []
  | item :: rest => fromPlan item :: fromPlanItems rest

/-- The canonical forms of members. -/
def fromPlanMembers : List (String × Data) → List (String × Data)
  | [] => []
  | (name, value) :: rest => (name, fromPlan value) :: fromPlanMembers rest

end

mutual

/-- No object in the value, at any depth, looks like an expression. -/
def Unambiguous : Data → Prop
  | .array items => UnambiguousItems items
  | .object members => source? members = none ∧ UnambiguousMembers members
  | .null | .bool _ | .number _ | .string _ => True

/-- No item holds an object that looks like an expression. -/
def UnambiguousItems : List Data → Prop
  | [] => True
  | item :: rest => Unambiguous item ∧ UnambiguousItems rest

/-- No member's value holds an object that looks like an expression. -/
def UnambiguousMembers : List (String × Data) → Prop
  | [] => True
  | (_, value) :: rest => Unambiguous value ∧ UnambiguousMembers rest

end

/-- Members look like an expression exactly if they are one key with an unmarked text. -/
theorem source?_eq_some_iff {members : List (String × Data)} {source : String} :
    source? members = some source ↔
      members = [("$expression", .string source)] ∧ ¬ IsMarked source := by
  constructor
  · intro found
    unfold source? at found
    split at found
    · split_ifs at found with looks
      cases found
      exact ⟨by rw [looks.1], looks.2⟩
    · cases found
  · rintro ⟨rfl, plain⟩
    exact if_pos ⟨rfl, plain⟩

/-- The items of an array are written one by one. -/
theorem inPlan_items (items : List Data) :
    Term.itemsToData (Term.ofItems items) = items.map inPlan := by
  induction items with
  | nil => rfl
  | cons item rest ih =>
      rw [Term.ofItems, Term.itemsToData, ih]
      rfl

/-- The members of an object are written one by one. -/
theorem inPlan_members (members : List (String × Data)) :
    Term.entriesToData (Term.ofMembers members) = Fields.mapValues inPlan members := by
  induction members with
  | nil => rfl
  | cons member rest ih =>
      rw [Term.ofMembers, Term.entriesToData, ih]
      rfl

@[simp] theorem inPlan_array (items : List Data) :
    inPlan (.array items) = .array (items.map inPlan) := by
  rw [inPlan, Term.ofData, Term.toData, inPlan_items]

@[simp] theorem inPlan_object (members : List (String × Data)) :
    inPlan (.object members) = .object (Fields.mapValues inPlan members) := by
  rw [inPlan, Term.ofData, Term.toData, inPlan_members]

/-- A text without the marker is written as it is. -/
theorem inPlan_string_of_not_isMarked {text : String} (plain : ¬ IsMarked text) :
    inPlan (.string text) = .string text := by
  rw [inPlan, Term.ofData, Term.ofText_of_not_isMarked plain, Term.toData]

/-- A doubled marker is written once. -/
theorem inPlan_string_of_escaped {rest : String} (marked : IsMarked rest) :
    inPlan (.string ("@" ++ rest)) = .string rest := by
  rw [inPlan, Term.ofData, Term.ofText_append, if_pos marked, Term.toData]

/-- An expression is written as an object. -/
theorem inPlan_string_of_expression {source : String} (plain : ¬ IsMarked source) :
    inPlan (.string ("@" ++ source)) = .object [("$expression", .string source)] := by
  rw [inPlan, Term.ofData, Term.ofText_append, if_neg plain, Term.toData]

/-- Only an unmarked text is written as an unmarked text. -/
theorem inPlan_eq_string_iff {value : Data} {text : String} (plain : ¬ IsMarked text) :
    inPlan value = .string text ↔ value = .string text := by
  constructor
  · intro isText
    cases value with
    | string written =>
        by_cases marked : IsMarked written
        · obtain ⟨rest, rfl⟩ := Term.isMarked_iff.mp marked
          by_cases escaped : IsMarked rest
          · rw [inPlan_string_of_escaped escaped] at isText
            cases isText
            exact absurd escaped plain
          · rw [inPlan_string_of_expression escaped] at isText
            cases isText
        · rw [inPlan_string_of_not_isMarked marked] at isText
          exact isText
    | array items =>
        rw [inPlan_array] at isText
        cases isText
    | object members =>
        rw [inPlan_object] at isText
        cases isText
    | null | bool _ | number _ => exact isText
  · rintro rfl
    exact inPlan_string_of_not_isMarked plain

/-- Only an unmarked text has an unmarked text as its canonical form. -/
theorem canonical_eq_string_iff {value : Data} {text : String} (plain : ¬ IsMarked text) :
    canonical value = .string text ↔ value = .string text := by
  constructor
  · intro isText
    cases value with
    | object members =>
        rw [canonical] at isText
        split at isText
        · cases isText
          exact absurd (Term.isMarked_append _) plain
        · cases isText
    | array items =>
        rw [canonical] at isText
        cases isText
    | null | bool _ | number _ | string _ =>
        rw [canonical] at isText
        exact isText
  · rintro rfl
    rw [canonical]

/-- Members look like an expression when they are written exactly if they do so in canonical form,
since neither step makes an unmarked text of anything else. -/
theorem source?_inPlan (members : List (String × Data)) :
    source? (Fields.mapValues inPlan members) = source? (canonicalMembers members) := by
  apply Option.ext
  intro source
  rw [source?_eq_some_iff, source?_eq_some_iff]
  apply and_congr_left
  intro plain
  rcases members with _ | ⟨⟨name, value⟩, _ | ⟨second, rest⟩⟩
  · rw [canonicalMembers]
    rfl
  · rw [canonicalMembers, canonicalMembers]
    simp only [Fields.mapValues, List.map_cons, List.map_nil, List.cons.injEq, Prod.mk.injEq,
      and_true, inPlan_eq_string_iff plain, canonical_eq_string_iff plain]
  · rw [canonicalMembers, canonicalMembers]
    simp [Fields.mapValues]

/-! ## Reading the canonical form back -/

mutual

/-- What is written gives the canonical form back. -/
theorem fromPlan_inPlan : ∀ value : Data, fromPlan (inPlan value) = canonical value
  | .null => rfl
  | .bool _ => rfl
  | .number _ => rfl
  | .string text => by
      rw [canonical]
      by_cases marked : IsMarked text
      · obtain ⟨rest, rfl⟩ := Term.isMarked_iff.mp marked
        by_cases escaped : IsMarked rest
        · rw [inPlan_string_of_escaped escaped, fromPlan, if_pos escaped]
        · have looks := source?_eq_some_iff.mpr ⟨rfl, escaped⟩
          rw [inPlan_string_of_expression escaped, fromPlan, looks]
      · rw [inPlan_string_of_not_isMarked marked, fromPlan, if_neg marked]
  | .array items => by
      rw [inPlan_array, fromPlan, canonical, fromPlanItems_inPlan items]
  | .object members => by
      rw [inPlan_object, fromPlan, canonical, source?_inPlan, fromPlanMembers_inPlan members]

theorem fromPlanItems_inPlan : ∀ items : List Data,
    fromPlanItems (items.map inPlan) = canonicalItems items
  | [] => rfl
  | item :: rest => by
      rw [List.map_cons, fromPlanItems, canonicalItems, fromPlan_inPlan item,
        fromPlanItems_inPlan rest]

theorem fromPlanMembers_inPlan : ∀ members : List (String × Data),
    fromPlanMembers (Fields.mapValues inPlan members) = canonicalMembers members
  | [] => rfl
  | (name, value) :: rest => by
      rw [canonicalMembers, ← fromPlan_inPlan value, ← fromPlanMembers_inPlan rest,
        ← fromPlanMembers]
      rfl

end

mutual

/-- A value is written as its canonical form is. -/
theorem inPlan_canonical : ∀ value : Data, inPlan (canonical value) = inPlan value
  | .null => by rw [canonical]
  | .bool _ => by rw [canonical]
  | .number _ => by rw [canonical]
  | .string _ => by rw [canonical]
  | .array items => by
      rw [canonical, inPlan_array, inPlan_array, inPlan_canonicalItems items]
  | .object members => by
      rw [canonical]
      cases looks : source? (canonicalMembers members) with
      | some source =>
          have written := looks
          rw [← source?_inPlan, source?_eq_some_iff] at written
          dsimp only
          rw [inPlan_string_of_expression written.2, inPlan_object, written.1]
      | none =>
          dsimp only
          rw [inPlan_object, inPlan_object, inPlan_canonicalMembers members]

theorem inPlan_canonicalItems : ∀ items : List Data,
    (canonicalItems items).map inPlan = items.map inPlan
  | [] => rfl
  | item :: rest => by
      rw [canonicalItems, List.map_cons, List.map_cons, inPlan_canonical item,
        inPlan_canonicalItems rest]

theorem inPlan_canonicalMembers : ∀ members : List (String × Data),
    Fields.mapValues inPlan (canonicalMembers members) = Fields.mapValues inPlan members
  | [] => rfl
  | (name, value) :: rest => by
      have first := inPlan_canonical value
      have later := inPlan_canonicalMembers rest
      rw [Fields.mapValues] at later
      rw [canonicalMembers, Fields.mapValues, List.map_cons, first, later]
      rfl

end

mutual

/-- Without an object that looks like an expression, a value is its own canonical form. -/
theorem canonical_of_unambiguous : ∀ value : Data, Unambiguous value → canonical value = value
  | .null, _ => by rw [canonical]
  | .bool _, _ => by rw [canonical]
  | .number _, _ => by rw [canonical]
  | .string _, _ => by rw [canonical]
  | .array items, clear => by
      rw [Unambiguous] at clear
      rw [canonical, canonicalItems_of_unambiguous items clear]
  | .object members, clear => by
      rw [Unambiguous] at clear
      rw [canonical, canonicalMembers_of_unambiguous members clear.2, clear.1]

theorem canonicalItems_of_unambiguous : ∀ items : List Data,
    UnambiguousItems items → canonicalItems items = items
  | [], _ => rfl
  | item :: rest, clear => by
      rw [UnambiguousItems] at clear
      rw [canonicalItems, canonical_of_unambiguous item clear.1,
        canonicalItems_of_unambiguous rest clear.2]

theorem canonicalMembers_of_unambiguous : ∀ members : List (String × Data),
    UnambiguousMembers members → canonicalMembers members = members
  | [], _ => rfl
  | (name, value) :: rest, clear => by
      rw [UnambiguousMembers] at clear
      rw [canonicalMembers, canonical_of_unambiguous value clear.1,
        canonicalMembers_of_unambiguous rest clear.2]

end

/-- An object that looks like an expression inside of one that does not any more, next to escapes. -/
def nestedExpressions : Data :=
  .array [
    .object [("$expression", .object [("$expression", .string "user.id")])],
    .string "@@user",
    .string "@user"]

/-- The same with the inner object as the expression that it looks like. -/
def nestedExpressionsShort : Data :=
  .array [
    .object [("$expression", .string "@user.id")],
    .string "@@user",
    .object [("$expression", .string "user")]]

/-- Values are written into a plan alike exactly if their canonical forms are equal, and then the
texts are the same as well, member order included. So values without an object that looks like an
expression have the same text only if they are equal: expressions, escaped texts and plain data stay
apart. -/
theorem written_eq_iff_canonical_eq (first second : Data) :
    ((Term.ofData first).toData = (Term.ofData second).toData ↔
        canonical first = canonical second) ∧
      (Json.compact (Term.ofData first).toData = Json.compact (Term.ofData second).toData ↔
        canonical first = canonical second) ∧
      (Unambiguous first → Unambiguous second →
        (Json.compact (Term.ofData first).toData = Json.compact (Term.ofData second).toData ↔
          first = second)) := by
  have kernel : inPlan first = inPlan second ↔ canonical first = canonical second := by
    constructor
    · intro same
      rw [← fromPlan_inPlan first, same, fromPlan_inPlan]
    · intro same
      rw [← inPlan_canonical first, same, inPlan_canonical]
  have texts : Json.compact (inPlan first) = Json.compact (inPlan second) ↔
      canonical first = canonical second := Json.compact_inj.trans kernel
  refine ⟨kernel, texts, ?_⟩
  intro clearFirst clearSecond
  rw [canonical_of_unambiguous first clearFirst, canonical_of_unambiguous second clearSecond]
    at texts
  exact texts

/-- The two nestings are written alike. Their last items alone are ambiguous, and the others are
told apart. -/
theorem nestedExpressions_written_eq :
    Json.compact (Term.ofData nestedExpressions).toData =
        Json.compact (Term.ofData nestedExpressionsShort).toData ∧
      Json.compact (Term.ofData (.string "@@user")).toData ≠
        Json.compact (Term.ofData (.string "@user")).toData := by
  have alike := written_eq_iff_canonical_eq nestedExpressions nestedExpressionsShort
  have apart := written_eq_iff_canonical_eq (.string "@@user") (.string "@user")
  refine ⟨alike.2.1.mpr (by decide), ?_⟩
  intro same
  have equal := (apart.2.2 (by rw [Unambiguous]; trivial) (by rw [Unambiguous]; trivial)).mp same
  exact absurd equal (by decide)

end Data

end MenuPlan

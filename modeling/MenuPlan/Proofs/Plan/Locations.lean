/-
# Locations of items

A location is written from the names on the way to an item, with a word between dots before each of
them. The names may have dots themselves, and may have the words, so different items can be at one
location. `Text.HasPart` says that a word stands between the dots of a name; where no name has the
word that separates it from the next one, a location determines the names. Then no two places in the
tree of an item are at one location.
-/

import MenuPlan.Proofs.Item.Conservation
import MenuPlan.Proofs.Plan.Remarks
import MenuPlan.Text.Split

namespace MenuPlan

namespace Text

/-- A separator between two texts separates the parts of the one from those of the other. -/
theorem split_append (separator : Char) (before after : List Char) :
    split separator (before ++ separator :: after) =
      split separator before ++ split separator after := by
  induction before with
  | nil =>
      cases parts : split separator after with
      | nil => exact absurd parts (split_ne_nil separator after)
      | cons part others => simp [split, parts]
  | cons c rest ih =>
      cases parts : split separator rest with
      | nil => exact absurd parts (split_ne_nil separator rest)
      | cons part others =>
          rw [parts] at ih
          by_cases isSeparator : c = separator
          · simp [split, ih, parts, isSeparator]
          · simp [split, ih, parts, isSeparator]

/-- A text without a separator is its own only part. -/
theorem split_of_notMem {separator : Char} {text : List Char} (absent : separator ∉ text) :
    split separator text = [text] := by
  induction text with
  | nil => rfl
  | cons c rest ih =>
      rw [List.mem_cons, not_or] at absent
      simp [split, ih absent.2, Ne.symm absent.1]

/-- Texts with the same parts are the same. -/
theorem split_injective (separator : Char) : Function.Injective (split separator) := by
  intro first second same
  rw [← intercalate_split separator first, same, intercalate_split]

/-- The word is one of the parts of the text between its dots. -/
def HasPart (word text : String) : Prop :=
  word.toList ∈ split '.' text.toList

instance (word text : String) : Decidable (HasPart word text) :=
  inferInstanceAs (Decidable (_ ∈ _))

/-- What can stand behind a name in a location: nothing, or the word between dots and more. -/
def IsTail (word rest : String) : Prop :=
  rest = "" ∨ ∃ more, rest = "." ++ word ++ "." ++ more

/-- The parts of a name are those that come before the word when a tail stands behind it. -/
theorem IsTail.takeWhile_split {word name rest : String} (tail : IsTail word rest)
    (noDot : '.' ∉ word.toList) (plain : ¬ HasPart word name) :
    (split '.' (name ++ rest).toList).takeWhile (· ≠ word.toList) = split '.' name.toList := by
  have areNoWord : ∀ part ∈ split '.' name.toList, decide (part ≠ word.toList) = true := by
    intro part member
    rw [decide_eq_true_iff]
    rintro rfl
    exact plain member
  rcases tail with rfl | ⟨more, rfl⟩
  · rw [String.append_empty, List.takeWhile_eq_self_iff]
    exact areNoWord
  · have letters : (name ++ ("." ++ word ++ "." ++ more)).toList =
        name.toList ++ '.' :: (word.toList ++ '.' :: more.toList) := by
      simp [String.toList_append]
    rw [letters, split_append, split_append, split_of_notMem noDot, List.singleton_append,
      List.takeWhile_append_of_pos areNoWord, List.takeWhile_cons_of_neg (by simp),
      List.append_nil]

/-- A name without the word can be told from what stands behind it. -/
theorem eq_of_append_tail {word first second firstRest secondRest : String}
    (noDot : '.' ∉ word.toList) (plainFirst : ¬ HasPart word first)
    (plainSecond : ¬ HasPart word second) (firstTail : IsTail word firstRest)
    (secondTail : IsTail word secondRest) (same : first ++ firstRest = second ++ secondRest) :
    first = second := by
  have sameParts : split '.' first.toList = split '.' second.toList := by
    rw [← firstTail.takeWhile_split noDot plainFirst, same,
      secondTail.takeWhile_split noDot plainSecond]
  exact String.toList_injective (split_injective '.' sameParts)

end Text

namespace Item

/-- The names of the items below are distinct, at every depth. -/
def DistinctBelow (item : Item) : Prop :=
  item.Everywhere fun item => Fields.Distinct item.children

/-- No name below has the word that stands before it in a location, at any depth. -/
def PlainBelow (item : Item) : Prop :=
  item.Everywhere fun item => ∀ child ∈ item.children, ¬ Text.HasPart "children" child.1

/-- Without items below there are no names to look at. -/
theorem plainBelow_of_leaf {item : Item} (isLeaf : item.children = []) : item.PlainBelow := by
  constructor
  · rw [isLeaf]
    exact List.forall_mem_nil _
  · rw [isLeaf]
    exact List.forall_mem_nil _

/-- An item that conserves data with distinct names has distinct names below it. -/
theorem Conserves.distinctBelow {raw : Data} {item : Item} (conserves : Conserves raw item)
    (distinct : raw.Distinct) : item.DistinctBelow := by
  refine Conserves.everywhere List.nodup_nil ?_ distinct conserves
  intro members item distinct conserves
  have below := conserves.conservesBelow_children
  generalize isValue : (Fields.get? members "children").getD .null = value at below
  generalize item.children = children at below ⊢
  cases below with
  | none => exact List.nodup_nil
  | @items entries _ each =>
      have member := Data.mem_of_getD_eq_object isValue
      have distinctBelow := (Data.distinct_object_iff.mp distinct).2 _ member
      rw [Fields.Distinct,
        Fields.names_eq_of_forall₂ (fun _ _ => And.left) (conservesEach_iff.mp each)]
      exact (Data.distinct_object_iff.mp distinctBelow).1

/-- In a location, nothing but more names stands behind the name of an item. -/
theorem tail_of_mem_sites {location : String} {above : List Item} {item : Item} {site : Site}
    (member : site ∈ sites location above item) :
    ∃ rest, Text.IsTail "children" rest ∧ site.location = location ++ rest := by
  rw [sites_eq_cons, childSites_eq_flatMap] at member
  rcases List.mem_cons.mp member with rfl | below
  · exact ⟨"", Or.inl rfl, String.append_empty.symm⟩
  · obtain ⟨entry, -, inChild⟩ := List.mem_flatMap.mp below
    obtain ⟨rest, isBelow⟩ := location_of_mem_sites inChild
    refine ⟨".children." ++ (entry.1 ++ rest), Or.inr ⟨entry.1 ++ rest, rfl⟩, ?_⟩
    simp only [isBelow, String.append_assoc]

/-- Two places are at different locations. -/
def Site.Apart (first second : Site) : Prop :=
  first.location ≠ second.location

/-- The places of items with different plain names are apart. -/
theorem apart_of_mem_sites {top : String} {first second : String × Item} {above : List Item}
    (different : first.1 ≠ second.1) (plainFirst : ¬ Text.HasPart "children" first.1)
    (plainSecond : ¬ Text.HasPart "children" second.1) {site other : Site}
    (inFirst : site ∈ sites (top ++ first.1) above first.2)
    (inSecond : other ∈ sites (top ++ second.1) above second.2) : site.Apart other := by
  obtain ⟨firstRest, firstTail, isFirst⟩ := tail_of_mem_sites inFirst
  obtain ⟨secondRest, secondTail, isSecond⟩ := tail_of_mem_sites inSecond
  rw [Site.Apart, isFirst, isSecond, String.append_assoc, String.append_assoc, ne_eq,
    String.append_right_inj]
  intro same
  exact different
    (Text.eq_of_append_tail (by decide) plainFirst plainSecond firstTail secondTail same)

/-- The places of several items are apart if their names are distinct and plain and this is so of
each of them. -/
theorem pairwise_apart_flatMap (top : String) {items : List (String × Item)} (above : List Item)
    (distinct : Fields.Distinct items) (plain : ∀ item ∈ items, ¬ Text.HasPart "children" item.1)
    (each : ∀ item ∈ items, (sites (top ++ item.1) above item.2).Pairwise Site.Apart) :
    (items.flatMap fun item => sites (top ++ item.1) above item.2).Pairwise Site.Apart := by
  rw [List.pairwise_flatMap]
  refine ⟨each, ?_⟩
  refine (List.pairwise_map.mp distinct).imp_of_mem ?_
  intro first second isFirst isSecond different site inFirst other inSecond
  exact apart_of_mem_sites different (plain first isFirst) (plain second isSecond) inFirst inSecond

/-- The places in the tree of an item are apart if the names below it are distinct and plain. -/
theorem pairwise_apart_sites {item : Item} (distinct : item.DistinctBelow)
    (plain : item.PlainBelow) (location : String) (above : List Item) :
    (sites location above item).Pairwise Site.Apart := by
  induction item using treeInduction generalizing location above with
  | step item ih =>
    obtain ⟨distinctHere, distinctBelow⟩ := distinct
    obtain ⟨plainHere, plainBelow⟩ := plain
    rw [sites_eq_cons, childSites_eq_flatMap, List.pairwise_cons]
    constructor
    · intro site below same
      obtain ⟨entry, -, inChild⟩ := List.mem_flatMap.mp below
      obtain ⟨rest, isBelow⟩ := location_of_mem_sites inChild
      have sameLength := congrArg String.length (same.trans isBelow)
      have wordLength : ".children.".length = 10 := rfl
      simp only [String.length_append] at sameLength
      omega
    · apply pairwise_apart_flatMap _ _ distinctHere plainHere
      intro child isChild
      exact ih child isChild (distinctBelow child isChild) (plainBelow child isChild) _ _

end Item

end MenuPlan

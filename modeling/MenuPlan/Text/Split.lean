/-
# Splitting texts

The parts of a text between the occurrences of a separator. There is always one part more than there
are separators, so a text without any is its own only part.
-/

namespace MenuPlan.Text

/-- The parts of a text between separators. -/
def split (separator : Char) : List Char → List (List Char)
  | [] => [[]]
  | c :: rest =>
      match split separator rest with
      | [] => [[c]]
      | part :: parts => if c = separator then [] :: part :: parts else (c :: part) :: parts

/-- A text has at least one part. -/
theorem split_ne_nil (separator : Char) (text : List Char) : split separator text ≠ [] := by
  cases text with
  | nil => simp [split]
  | cons c rest =>
      simp only [split]
      split
      · simp
      · split <;> simp

/-- The parts with the separators between them are the text. -/
theorem intercalate_split (separator : Char) (text : List Char) :
    [separator].intercalate (split separator text) = text := by
  induction text with
  | nil => simp [split]
  | cons c rest ih =>
      cases parts : split separator rest with
      | nil => exact absurd parts (split_ne_nil separator rest)
      | cons part others =>
          rw [parts] at ih
          by_cases isSeparator : c = separator
          · simp only [split, parts, isSeparator, if_true]
            rw [← ih]
            simp [List.intercalate]
          · simp only [split, parts, isSeparator, if_false]
            rw [← ih]
            cases others <;> simp [List.intercalate]

end MenuPlan.Text

/-
# Reading back what has been written to a tree

Writing a text to a path puts a file where there was no directory, in a directory that is there, so
the way to the file is the same afterwards: every step of it starts from a directory, and no
directory has been replaced. Reading the path then gives the text.
-/

import Mathlib
import MenuPlan.FileTree
import MenuPlan.Proofs.Steps

namespace MenuPlan.FileTree

/-- Steps from directories only depend on the directories. -/
theorem step_put {tree : FileTree} {location : Location} (entry : FileEntry)
    (noDirectory : tree.get? location ≠ some .directory) {start next : Location} {name : String}
    (isStep : tree.step start name = .ok next) :
    (tree.put location entry).step start name = .ok next := by
  have isDirectory : tree.get? start = some .directory := by
    rw [step] at isStep
    split at isStep
    · assumption
    · cases isStep
    · cases isStep
  have different : start ≠ location := by
    rintro rfl
    exact noDirectory isDirectory
  rw [step, get?_put_of_ne tree entry different, ← isStep, step]

theorem foldlM_step_put {tree : FileTree} {location : Location} (entry : FileEntry)
    (noDirectory : tree.get? location ≠ some .directory) (names : List String)
    {start last : Location} (isPath : names.foldlM tree.step start = .ok last) :
    names.foldlM (tree.put location entry).step start = .ok last := by
  induction names generalizing start with
  | nil => exact isPath
  | cons name names ih =>
      rw [List.foldlM_cons, bind_eq_ok_iff] at isPath
      obtain ⟨next, isStep, isRest⟩ := isPath
      rw [List.foldlM_cons, step_put entry noDirectory isStep, ok_bind]
      exact ih isRest

/-- A file is made at the last step of the path, which starts from a directory and does not lead to
one. -/
theorem target_spec {tree : FileTree} {path : String} {location : Location}
    (isTarget : tree.target path = .ok location) :
    ∃ before last parent, FilePath.steps path = before ++ [last] ∧
      before.foldlM tree.step (tree.start path) = .ok parent ∧
      tree.step parent last = .ok location ∧ location ≠ [] ∧
      tree.get? location ≠ some .directory := by
  unfold target at isTarget
  cases reversed : (FilePath.steps path).reverse with
  | nil =>
      rw [reversed] at isTarget
      cases isTarget
  | cons last before =>
      rw [reversed] at isTarget
      have isSteps : FilePath.steps path = before.reverse ++ [last] := by
        rw [← List.reverse_reverse (FilePath.steps path), reversed, List.reverse_cons]
      extract_lets asked at isTarget
      obtain ⟨parent, isParent, isTarget⟩ := bind_eq_ok_iff.mp isTarget
      obtain ⟨next, isLast, isTarget⟩ := bind_eq_ok_iff.mp isTarget
      -- A path that asks for a directory fails at the end, whatever its steps are.
      by_cases isAsked : asked
      · rw [if_pos (Or.inl isAsked)] at isTarget
        cases isTarget
      · simp only [if_neg isAsked] at isParent isLast isTarget
        split_ifs at isTarget with isName isDirectory
        cases isTarget
        refine ⟨before.reverse, last, parent, isSteps, isParent, isLast, ?_, isDirectory⟩
        rintro rfl
        exact isDirectory rfl

/-- What has been put where a path makes a file is found at the path. -/
theorem find_put_target {tree : FileTree} {path : String} {location : Location}
    (isTarget : tree.target path = .ok location) (entry : FileEntry) :
    (tree.put location entry).find path = .ok entry := by
  obtain ⟨before, last, parent, isPath, isParent, isLast, notRoot, noDirectory⟩ :=
    target_spec isTarget
  have nonempty : path ≠ "" := by
    rintro rfl
    have noSteps : FilePath.steps "" = [] := by
      decide
    rw [noSteps] at isPath
    exact absurd isPath.symm (List.append_ne_nil_of_right_ne_nil _ (List.cons_ne_nil _ _))
  have isLocation : (tree.put location entry).locate path = .ok location := by
    have sameStart : (tree.put location entry).start path = tree.start path := rfl
    rw [locate, if_neg nonempty, isPath, List.foldlM_append, sameStart,
      foldlM_step_put entry noDirectory before isParent]
    show [last].foldlM (tree.put location entry).step parent = .ok location
    rw [List.foldlM_cons, step_put entry noDirectory isLast]
    rfl
  rw [find, isLocation, ok_bind, get?_put_self tree location entry notRoot]

/-- A text that has been written to a path is read there. -/
theorem readText_writeText {tree written : FileTree} {path text : String}
    (isWritten : tree.writeText path text = .ok written) : written.readText path = .ok text := by
  rw [writeText, bind_eq_ok_iff] at isWritten
  obtain ⟨location, isTarget, isPut⟩ := isWritten
  cases isPut
  have decoded : String.fromUTF8? text.toUTF8 = some text := dif_pos text.isValidUTF8
  rw [readText, find_put_target isTarget, ok_bind]
  dsimp only
  rw [decoded]

end MenuPlan.FileTree

/-
# Ascents in a map of breadcrumbs

An ascent is a list of entries of the map, each the parent of the one before it, without a
repetition. This module says what an ascent shows about the map: an ascent that ends at an entry
without a parent brings all its members to the top, and one that cannot go on, because the next
parent is unknown or has been met already, keeps all its members away from it.

Nothing here refers to the climb that computes ascents, so the two notions below that describe a
map, `ReachesTop` and `ClosedForest`, are about the parents that the map holds and nothing else.
-/

import Mathlib.Data.List.Chain
import Mathlib.Data.List.Nodup
import Mathlib.Data.List.Perm.Subperm
import MenuPlan.Trail

namespace MenuPlan.Trail

variable {all path : Fields Breadcrumb}

/-- Repeated steps to the parent lead from this name to an entry without a parent. -/
inductive ReachesTop (all : Fields Breadcrumb) : String → Prop where
  | top {name : String} {breadcrumb : Breadcrumb}
      (entry : Fields.get? all name = some breadcrumb) (noParent : breadcrumb.parent = none) :
      ReachesTop all name
  | viaParent {name parent : String} {breadcrumb : Breadcrumb}
      (entry : Fields.get? all name = some breadcrumb)
      (hasParent : breadcrumb.parent = some parent) (reaches : ReachesTop all parent) :
      ReachesTop all name

/-- The parents of a map form a forest inside the map: each of them is a name of the map, and from
every entry the steps to the parent come to an end. -/
structure ClosedForest (all : Fields Breadcrumb) : Prop where
  known : ∀ name breadcrumb parent, (name, breadcrumb) ∈ all → breadcrumb.parent = some parent →
    parent ∈ Fields.names all
  grounded : ∀ name ∈ Fields.names all, ReachesTop all name

/-- Entries of a map, each followed by its parent, none of them twice. -/
structure Ascent (all path : Fields Breadcrumb) : Prop where
  entries : ∀ entry ∈ path, Fields.get? all entry.1 = some entry.2
  parents : path.IsChain fun below above => below.2.parent = some above.1
  distinct : Fields.Distinct path

/-- How an ascent ends: at the top, or at an entry whose parent is unknown or on the ascent, with
the error that reports this. -/
inductive Ending (all path : Fields Breadcrumb) : Option CompileError → Prop where
  | top {last : String × Breadcrumb} (isLast : path.getLast? = some last)
      (noParent : last.2.parent = none) : Ending all path none
  | unknown {last : String × Breadcrumb} {parent : String} (isLast : path.getLast? = some last)
      (hasParent : last.2.parent = some parent) (absent : parent ∉ Fields.names all) :
      Ending all path (some (.missingParent parent last.1))
  | repeated {last : String × Breadcrumb} {parent : String} (isLast : path.getLast? = some last)
      (hasParent : last.2.parent = some parent) (onPath : parent ∈ Fields.names path) :
      Ending all path (some (.circularReference last.1 (Fields.names path)))

/-- What reaches the top is a name of the map. -/
theorem ReachesTop.mem_names {name : String} (reaches : ReachesTop all name) :
    name ∈ Fields.names all := by
  rw [← Fields.get?_isSome_iff]
  cases reaches with
  | top entry _ => rw [entry]; rfl
  | viaParent entry _ _ => rw [entry]; rfl

/-- The parent of an entry that reaches the top reaches it too. -/
theorem ReachesTop.parent {name parent : String} {breadcrumb : Breadcrumb}
    (reaches : ReachesTop all name) (entry : Fields.get? all name = some breadcrumb)
    (hasParent : breadcrumb.parent = some parent) : ReachesTop all parent := by
  cases reaches with
  | top found noParent =>
      cases Option.some.inj (found.symm.trans entry)
      rw [noParent] at hasParent
      cases hasParent
  | viaParent found isParent later =>
      cases Option.some.inj (found.symm.trans entry)
      cases Option.some.inj (isParent.symm.trans hasParent)
      exact later

/-- A name on an ascent belongs to the entry that the map has under it. -/
theorem Ascent.mem_of_mem_names (ascent : Ascent all path) {name : String}
    (onPath : name ∈ Fields.names path) {breadcrumb : Breadcrumb}
    (entry : Fields.get? all name = some breadcrumb) : (name, breadcrumb) ∈ path := by
  obtain ⟨⟨met, found⟩, member, rfl⟩ := List.mem_map.mp onPath
  have same : found = breadcrumb := Option.some.inj ((ascent.entries _ member).symm.trans entry)
  exact same ▸ member

/-- The names on an ascent are names of the map. -/
theorem Ascent.names_subset (ascent : Ascent all path) :
    Fields.names path ⊆ Fields.names all := by
  intro name onPath
  obtain ⟨entry, member, rfl⟩ := List.mem_map.mp onPath
  rw [← Fields.get?_isSome_iff, ascent.entries entry member]
  rfl

/-- An ascent is no longer than the map. -/
theorem Ascent.length_le (ascent : Ascent all path) : path.length ≤ all.length := by
  have fits := (List.subperm_of_subset ascent.distinct ascent.names_subset).length_le
  simpa only [Fields.names, List.length_map] using fits

theorem Ascent.tail {first : String × Breadcrumb} (ascent : Ascent all (first :: path)) :
    Ascent all path where
  entries entry member := ascent.entries entry (List.mem_cons_of_mem _ member)
  parents := ascent.parents.tail
  distinct := (List.nodup_cons.mp ascent.distinct).2

/-- A single entry is an ascent. -/
theorem Ascent.single {name : String} {breadcrumb : Breadcrumb}
    (entry : Fields.get? all name = some breadcrumb) : Ascent all [(name, breadcrumb)] where
  entries other member := by
    rw [List.mem_singleton.mp member]
    exact entry
  parents := List.isChain_singleton _
  distinct := List.nodup_singleton _

/-- An ascent goes on to the parent of its last entry, if that has not been met. -/
theorem Ascent.snoc {last : String × Breadcrumb} {parent : String} {next : Breadcrumb}
    (ascent : Ascent all path) (isLast : path.getLast? = some last)
    (hasParent : last.2.parent = some parent) (entry : Fields.get? all parent = some next)
    (fresh : parent ∉ Fields.names path) : Ascent all (path ++ [(parent, next)]) where
  entries other member := by
    rcases List.mem_append.mp member with met | added
    · exact ascent.entries other met
    · rw [List.mem_singleton.mp added]
      exact entry
  parents := by
    refine List.isChain_append.mpr ⟨ascent.parents, List.isChain_singleton _, ?_⟩
    intro below isBelow above isAbove
    have sameBelow : last = below := Option.some.inj (isLast.symm.trans isBelow)
    have sameAbove : (parent, next) = above := Option.some.inj isAbove
    rw [← sameBelow, ← sameAbove]
    exact hasParent
  distinct := by
    rw [Fields.Distinct, Fields.names_append]
    refine List.nodup_append.mpr ⟨ascent.distinct, List.nodup_singleton _, ?_⟩
    intro met onPath added isAdded same
    rw [List.mem_singleton.mp isAdded] at same
    rw [same] at onPath
    exact fresh onPath

/-- Every entry of an ascent but the last is followed by its parent. -/
theorem Ascent.eq_last_or_parent_mem (ascent : Ascent all path) {last entry : String × Breadcrumb}
    (isLast : path.getLast? = some last) (member : entry ∈ path) :
    entry = last ∨ ∃ parent ∈ Fields.names path, entry.2.parent = some parent := by
  induction path with
  | nil => cases member
  | cons first rest ih =>
      cases rest with
      | nil =>
          left
          exact (List.mem_singleton.mp member).trans (Option.some.inj isLast)
      | cons second rest =>
          rcases List.mem_cons.mp member with rfl | later
          · right
            refine ⟨second.1, ?_, (List.isChain_cons_cons.mp ascent.parents).1⟩
            exact List.mem_cons_of_mem _ List.mem_cons_self
          · rw [List.getLast?_cons_cons] at isLast
            rcases ih ascent.tail isLast later with same | ⟨parent, onPath, hasParent⟩
            · exact Or.inl same
            · exact Or.inr ⟨parent, List.mem_cons_of_mem _ onPath, hasParent⟩

/-- All members of an ascent that ends at an entry without a parent reach the top. -/
theorem Ascent.reachesTop (ascent : Ascent all path) {last : String × Breadcrumb}
    (isLast : path.getLast? = some last) (noParent : last.2.parent = none) :
    ∀ name ∈ Fields.names path, ReachesTop all name := by
  induction path with
  | nil => cases isLast
  | cons first rest ih =>
      have entry := ascent.entries first List.mem_cons_self
      cases rest with
      | nil =>
          intro name onPath
          cases Option.some.inj isLast
          rw [List.mem_singleton.mp onPath]
          exact ReachesTop.top entry noParent
      | cons second rest =>
          rw [List.getLast?_cons_cons] at isLast
          have later := ih ascent.tail isLast
          intro name onPath
          rcases List.mem_cons.mp onPath with rfl | onRest
          · have hasParent := (List.isChain_cons_cons.mp ascent.parents).1
            exact ReachesTop.viaParent entry hasParent (later second.1 List.mem_cons_self)
          · exact later name onRest

/-- Nothing that reaches the top lies on an ascent where every parent is on the ascent or unknown.
The induction follows the steps to the top: each of them would stay on the ascent. -/
theorem ReachesTop.notMem_of_trapped (ascent : Ascent all path)
    (trapped : ∀ entry ∈ path, ∃ parent, entry.2.parent = some parent ∧
      (parent ∈ Fields.names path ∨ parent ∉ Fields.names all))
    {name : String} (reaches : ReachesTop all name) : name ∉ Fields.names path := by
  induction reaches with
  | top entry noParent =>
      intro onPath
      obtain ⟨parent, hasParent, -⟩ := trapped _ (ascent.mem_of_mem_names onPath entry)
      rw [noParent] at hasParent
      cases hasParent
  | viaParent entry hasParent reaches ih =>
      intro onPath
      obtain ⟨other, isParent, next⟩ := trapped _ (ascent.mem_of_mem_names onPath entry)
      cases Option.some.inj (isParent.symm.trans hasParent)
      rcases next with stays | absent
      · exact ih stays
      · exact absent reaches.mem_names

/-- No member of an ascent that ends with an error reaches the top. -/
theorem Ascent.not_reachesTop (ascent : Ascent all path) {error : CompileError}
    (ending : Ending all path (some error)) {name : String} (onPath : name ∈ Fields.names path) :
    ¬ ReachesTop all name := by
  have trapped : ∀ entry ∈ path, ∃ parent, entry.2.parent = some parent ∧
      (parent ∈ Fields.names path ∨ parent ∉ Fields.names all) := by
    intro entry member
    cases ending with
    | unknown isLast hasParent absent =>
        rcases ascent.eq_last_or_parent_mem isLast member with rfl | ⟨parent, onPath, isParent⟩
        · exact ⟨_, hasParent, Or.inr absent⟩
        · exact ⟨parent, isParent, Or.inl onPath⟩
    | repeated isLast hasParent known =>
        rcases ascent.eq_last_or_parent_mem isLast member with rfl | ⟨parent, onPath, isParent⟩
        · exact ⟨_, hasParent, Or.inl known⟩
        · exact ⟨parent, isParent, Or.inl onPath⟩
  intro reaches
  exact reaches.notMem_of_trapped ascent trapped onPath

/-- Two ascents from one entry to the top are the same. -/
theorem Ascent.eq_of_top {other : Fields Breadcrumb} (first : Ascent all path)
    (second : Ascent all other) (sameStart : path.head? = other.head?)
    (firstEnding : Ending all path none) (secondEnding : Ending all other none) :
    path = other := by
  obtain ⟨isLast, noParent⟩ := firstEnding
  obtain ⟨isOtherLast, noOtherParent⟩ := secondEnding
  induction path generalizing other with
  | nil => cases isLast
  | cons start rest ih =>
      cases other with
      | nil => cases isOtherLast
      | cons otherStart otherRest =>
          cases Option.some.inj sameStart
          cases rest with
          | nil =>
              cases otherRest with
              | nil => rfl
              | cons above _ =>
                  have hasParent := (List.isChain_cons_cons.mp second.parents).1
                  have isStart : start = _ := Option.some.inj isLast
                  rw [isStart, noParent] at hasParent
                  cases hasParent
          | cons next rest =>
              have hasParent := (List.isChain_cons_cons.mp first.parents).1
              cases otherRest with
              | nil =>
                  have isStart : start = _ := Option.some.inj isOtherLast
                  rw [isStart, noOtherParent] at hasParent
                  cases hasParent
              | cons otherNext otherRest =>
                  have hasOtherParent := (List.isChain_cons_cons.mp second.parents).1
                  have sameName : next.1 = otherNext.1 :=
                    Option.some.inj (hasParent.symm.trans hasOtherParent)
                  have entry := first.tail.entries next List.mem_cons_self
                  have otherEntry := second.tail.entries otherNext List.mem_cons_self
                  rw [sameName, otherEntry] at entry
                  have same : next = otherNext :=
                    Prod.ext sameName (Option.some.inj entry).symm
                  rw [List.getLast?_cons_cons] at isLast isOtherLast
                  rw [ih first.tail second.tail (congrArg some same) isLast isOtherLast]

end MenuPlan.Trail

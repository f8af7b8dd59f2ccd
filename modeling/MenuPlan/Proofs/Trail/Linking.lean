/-
# Linking all breadcrumbs

Linking goes through the entries of a map and stops at the first one that does not reach the top. It
succeeds exactly on the closed forests; then every trail is the trail of the parent with one call
more. When it fails, the error describes the ascent from the first entry that does not reach the
top.

A map has distinct names, which is the one hypothesis on the map throughout.
-/

import Mathlib
import MenuPlan.Proofs.Trail.Climb

namespace MenuPlan.Trail

variable {all : Fields Breadcrumb} {settings : Settings}

/-- What the entries become when none of them meets an obstacle. -/
def linked (settings : Settings) (all entries : Fields Breadcrumb) : Fields Instruction :=
  entries.map fun entry => (entry.1, ofPath settings entry.1 (climbFrom all entry.1 entry.2).path)

/-- No entry meets an obstacle on its climb. -/
def Clear (all entries : Fields Breadcrumb) : Prop :=
  ∀ entry ∈ entries, (climbFrom all entry.1 entry.2).obstacle = none

section Step

variable {name : String} {breadcrumb : Breadcrumb} (rest : Fields Breadcrumb)

/-- A climb without an obstacle gives a trail. -/
theorem link_result_of_top (clear : (climbFrom all name breadcrumb).obstacle = none) :
    (link settings all name breadcrumb).result =
      .ok (ofPath settings name (climbFrom all name breadcrumb).path) := by
  simp only [link, clear, Option.elim]

/-- An entry without an obstacle becomes its trail, and the pass goes on. -/
theorem linkEntries_cons_of_top (clear : (climbFrom all name breadcrumb).obstacle = none) :
    (linkEntries settings all ((name, breadcrumb) :: rest)).result =
      ((name, ofPath settings name (climbFrom all name breadcrumb).path) :: ·) <$>
        (linkEntries settings all rest).result := by
  simp only [linkEntries, link_result_of_top clear]

/-- The pass stops at an obstacle. -/
theorem linkEntries_cons_of_obstacle {error : CompileError}
    (obstacle : (climbFrom all name breadcrumb).obstacle = some error) :
    (linkEntries settings all ((name, breadcrumb) :: rest)).result = .error error := by
  have stopped : (link settings all name breadcrumb).result = .error error := by
    simp only [link, obstacle, Option.elim]
  simp only [linkEntries, stopped]

end Step

/-- Entries without obstacles are linked each by itself. -/
theorem linkEntries_of_clear {entries : Fields Breadcrumb} (clear : Clear all entries) :
    (linkEntries settings all entries).result = .ok (linked settings all entries) := by
  induction entries with
  | nil => rfl
  | cons entry rest ih =>
      have later := ih fun other member => clear other (List.mem_cons_of_mem _ member)
      rw [linkEntries_cons_of_top rest (clear entry List.mem_cons_self), later]
      rfl

/-- Entries are linked up to the first that meets an obstacle, which is then the result. -/
theorem linkEntries_of_obstacle {before after : Fields Breadcrumb} {name : String}
    {breadcrumb : Breadcrumb} {error : CompileError} (clear : Clear all before)
    (obstacle : (climbFrom all name breadcrumb).obstacle = some error) :
    (linkEntries settings all (before ++ (name, breadcrumb) :: after)).result = .error error := by
  induction before with
  | nil => exact linkEntries_cons_of_obstacle after obstacle
  | cons entry rest ih =>
      have later := ih fun other member => clear other (List.mem_cons_of_mem _ member)
      rw [List.cons_append, linkEntries_cons_of_top _ (clear entry List.mem_cons_self), later]
      rfl

/-- Either no entry meets an obstacle or there is a first one that does. -/
theorem clear_or_first_obstacle (all entries : Fields Breadcrumb) :
    Clear all entries ∨ ∃ before name breadcrumb after error,
      entries = before ++ (name, breadcrumb) :: after ∧ Clear all before ∧
        (climbFrom all name breadcrumb).obstacle = some error := by
  induction entries with
  | nil => exact Or.inl (List.forall_mem_nil _)
  | cons entry rest ih =>
      cases obstacle : (climbFrom all entry.1 entry.2).obstacle with
      | some error =>
          exact Or.inr ⟨[], entry.1, entry.2, rest, error, rfl, List.forall_mem_nil _, obstacle⟩
      | none =>
          rcases ih with clear | ⟨before, name, breadcrumb, after, error, rfl, clear, met⟩
          · exact Or.inl (List.forall_mem_cons.mpr ⟨obstacle, clear⟩)
          · exact Or.inr ⟨entry :: before, name, breadcrumb, after, error, rfl,
              List.forall_mem_cons.mpr ⟨obstacle, clear⟩, met⟩

/-- The pass succeeds only when no entry meets an obstacle. -/
theorem linkEntries_eq_ok {entries : Fields Breadcrumb} {trails : Fields Instruction}
    (succeeded : (linkEntries settings all entries).result = .ok trails) :
    Clear all entries ∧ trails = linked settings all entries := by
  rcases clear_or_first_obstacle all entries with
    clear | ⟨before, name, breadcrumb, after, error, rfl, clear, obstacle⟩
  · rw [linkEntries_of_clear clear] at succeeded
    exact ⟨clear, (Except.ok.inj succeeded).symm⟩
  · rw [linkEntries_of_obstacle clear obstacle] at succeeded
    cases succeeded

/-- The pass fails only at the first entry that meets an obstacle, with the error met there. -/
theorem linkEntries_eq_error {entries : Fields Breadcrumb} {error : CompileError}
    (failed : (linkEntries settings all entries).result = .error error) :
    ∃ before name breadcrumb after, entries = before ++ (name, breadcrumb) :: after ∧
      Clear all before ∧ (climbFrom all name breadcrumb).obstacle = some error := by
  rcases clear_or_first_obstacle all entries with
    clear | ⟨before, name, breadcrumb, after, met, rfl, clear, obstacle⟩
  · rw [linkEntries_of_clear clear] at failed
    cases failed
  · rw [linkEntries_of_obstacle clear obstacle] at failed
    rw [Except.error.inj failed] at obstacle
    exact ⟨before, name, breadcrumb, after, rfl, clear, obstacle⟩

/-- Entries of a map with distinct names are clear exactly when they all reach the top. -/
theorem clear_iff_reachesTop (distinct : Fields.Distinct all) {entries : Fields Breadcrumb}
    (within : ∀ entry ∈ entries, entry ∈ all) :
    Clear all entries ↔ ∀ entry ∈ entries, ReachesTop all entry.1 := by
  apply forall₂_congr
  intro entry member
  have found := Fields.get?_eq_some_of_mem distinct (within entry member)
  exact climbFrom_obstacle_eq_none_iff found

/-- The forests are the maps where every entry reaches the top: parents are known because they reach
the top as well. -/
theorem closedForest_iff_reachesTop (distinct : Fields.Distinct all) :
    ClosedForest all ↔ ∀ entry ∈ all, ReachesTop all entry.1 := by
  constructor
  · intro forest entry member
    exact forest.grounded entry.1 (List.mem_map.mpr ⟨entry, member, rfl⟩)
  · intro reaches
    refine ⟨?_, ?_⟩
    · intro name breadcrumb parent member hasParent
      have entry := Fields.get?_eq_some_of_mem distinct member
      exact ((reaches _ member).parent entry hasParent).mem_names
    · intro name known
      obtain ⟨entry, member, rfl⟩ := List.mem_map.mp known
      exact reaches entry member

/-- Linking a map succeeds exactly when no entry meets an obstacle. -/
theorem linkAll_eq_ok_iff (trails : Fields Instruction) :
    (linkAll settings all).result = .ok trails ↔
      Clear all all ∧ trails = linked settings all all := by
  constructor
  · exact linkEntries_eq_ok
  · rintro ⟨clear, rfl⟩
    exact linkEntries_of_clear clear

/-- Linking a map succeeds exactly when its parents form a closed forest. -/
theorem exists_trails_iff_closedForest (settings : Settings) (distinct : Fields.Distinct all) :
    (∃ trails, (linkAll settings all).result = .ok trails) ↔ ClosedForest all := by
  rw [closedForest_iff_reachesTop distinct, ← clear_iff_reachesTop distinct fun _ member => member]
  constructor
  · rintro ⟨trails, succeeded⟩
    exact ((linkAll_eq_ok_iff trails).mp succeeded).1
  · intro clear
    exact ⟨_, (linkAll_eq_ok_iff _).mpr ⟨clear, rfl⟩⟩

@[simp] theorem names_linked (entries : Fields Breadcrumb) :
    Fields.names (linked settings all entries) = Fields.names entries := by
  simp only [linked, Fields.names, List.map_map, Function.comp_def]

/-- The trail of an entry, when linking succeeds. -/
theorem get?_linked_of_entry {name : String} {breadcrumb : Breadcrumb}
    (entry : Fields.get? all name = some breadcrumb) :
    Fields.get? (linked settings all all) name =
      some (ofPath settings name (climbFrom all name breadcrumb).path) := by
  have found := Fields.get?_map
    (fun name breadcrumb => ofPath settings name (climbFrom all name breadcrumb).path) all name
  rw [entry] at found
  exact found

/-! ## Main results

Two maps show the results at work: in one the leaf comes before its ancestors, and one of them is a
service; in the other a tail leads into a loop that does not contain its start. -/

/-- A chain of three that lists the leaf first. -/
def leafFirst : Fields Breadcrumb := [
  ("leaf", { parent := some "middle", item := { attributes := [("label", .string "Leaf")] } }),
  ("middle", { parent := some "top", item := { service := some { id := "app.middle" } } }),
  ("top", { item := { attributes := [("label", .string "Top")] } })]

/-- A tail into a loop, behind an entry that reaches the top. -/
def tailIntoLoop : Fields Breadcrumb := [
  ("home", {}),
  ("leaf", { parent := some "a" }),
  ("a", { parent := some "b" }),
  ("b", { parent := some "c" }),
  ("c", { parent := some "a" })]

/-- Linking a map succeeds exactly when its parents form a closed forest. The trails then have the
names of the map in their order, and none of them makes more calls than the map has entries. -/
theorem linkAll_succeeds_iff_closedForest (settings : Settings) (all : Fields Breadcrumb)
    (distinct : Fields.Distinct all) :
    ((∃ trails, (linkAll settings all).result = .ok trails) ↔ ClosedForest all) ∧
      ∀ trails, (linkAll settings all).result = .ok trails →
        Fields.names trails = Fields.names all ∧
          ∀ name trail, (name, trail) ∈ trails → trail.calls.length ≤ all.length := by
  constructor
  · exact exists_trails_iff_closedForest settings distinct
  · intro trails succeeded
    obtain ⟨-, rfl⟩ := (linkAll_eq_ok_iff trails).mp succeeded
    constructor
    · exact names_linked all
    · intro name trail member
      obtain ⟨entry, inMap, isTrail⟩ := List.mem_map.mp member
      cases isTrail
      have ascent := climbFrom_ascent (Fields.get?_eq_some_of_mem distinct inMap)
      rw [ofPath, List.length_map, List.length_reverse]
      exact ascent.length_le

/-- Both directions at work: the chain is a forest because it links, and the loop does not link, so
it is none. -/
theorem closedForest_leafFirst_not_tailIntoLoop :
    Fields.Distinct leafFirst ∧ ClosedForest leafFirst ∧
      Fields.Distinct tailIntoLoop ∧ ¬ ClosedForest tailIntoLoop := by
  have chain := linkAll_succeeds_iff_closedForest {} leafFirst (by decide)
  have loop := linkAll_succeeds_iff_closedForest {} tailIntoLoop (by decide)
  have fails : (linkAll {} tailIntoLoop).result =
      .error (.circularReference "c" ["leaf", "a", "b", "c"]) := by cbv
  refine ⟨by decide, chain.1.mp ⟨linked {} leafFirst leafFirst, by cbv⟩, by decide, ?_⟩
  intro forest
  obtain ⟨trails, succeeds⟩ := loop.1.mpr forest
  rw [fails] at succeeds
  cases succeeds

/-- Every entry of a linked map has a trail whose calls attach its path from the top down, each
breadcrumb as the item that it is by itself. Without a parent this is the entry alone; with a parent
the trail is that of the parent with one more call and its own alias. -/
theorem linkAll_trail_extends_parent (settings : Settings) (all : Fields Breadcrumb)
    (distinct : Fields.Distinct all) (trails : Fields Instruction)
    (succeeded : (linkAll settings all).result = .ok trails) (name : String)
    (breadcrumb : Breadcrumb) (entry : Fields.get? all name = some breadcrumb) :
    ∃ trail path, Fields.get? trails name = some trail ∧
      (path.head? = some (name, breadcrumb) ∧ Ascent all path ∧ Ending all path none) ∧
      trail.calls = path.reverse.map (fun step =>
        Call.addChild step.1 (step.2.item.instruction settings step.1)) ∧
      trail.tags = [(settings.aliasTag, [[("alias", name)]])] ∧
      (breadcrumb.parent = none →
        trail.calls = [Call.addChild name (breadcrumb.item.instruction settings name)]) ∧
      ∀ parent, breadcrumb.parent = some parent →
        ∃ trailAbove, Fields.get? trails parent = some trailAbove ∧
          trail = { trailAbove with
            calls := trailAbove.calls ++
              [Call.addChild name (breadcrumb.item.instruction settings name)]
            tags := [(settings.aliasTag, [[("alias", name)]])] } := by
  obtain ⟨clear, rfl⟩ := (linkAll_eq_ok_iff trails).mp succeeded
  have forest := (clear_iff_reachesTop distinct fun _ member => member).mp clear
  have reaches := forest _ (Fields.mem_of_get?_eq_some entry)
  refine ⟨_, (climbFrom all name breadcrumb).path, get?_linked_of_entry entry,
    ⟨climb_head? _ _ _ _ _, climbFrom_ascent entry, climbFrom_ending_of_reachesTop entry reaches⟩,
    rfl, rfl, ?_, ?_⟩
  · intro noParent
    rw [climbFrom_path_of_no_parent entry noParent]
    rfl
  · intro parent hasParent
    have reachesAbove := reaches.parent entry hasParent
    obtain ⟨above, entryAbove⟩ :=
      Option.isSome_iff_exists.mp ((Fields.get?_isSome_iff all parent).mpr reachesAbove.mem_names)
    refine ⟨_, get?_linked_of_entry entryAbove, ?_⟩
    rw [climbFrom_path_of_parent entry hasParent entryAbove reachesAbove, ofPath,
      List.reverse_cons, List.map_append]
    rfl

/-- The trail of the leaf is that of the service above it with one more call. -/
theorem leafFirst_trail_extends_middle :
    ∃ trail trailAbove,
      (linkAll {} leafFirst).result = .ok (linked {} leafFirst leafFirst) ∧
      Fields.get? (linked {} leafFirst leafFirst) "leaf" = some trail ∧
      Fields.get? (linked {} leafFirst leafFirst) "middle" = some trailAbove ∧
      trail.calls = trailAbove.calls ++
        [Call.addChild "leaf" (.plainMap [("label", .literal (.string "Leaf"))])] := by
  have succeeds : (linkAll {} leafFirst).result = .ok (linked {} leafFirst leafFirst) := by cbv
  obtain ⟨trail, path, isTrail, -, -, -, -, extends'⟩ :=
    linkAll_trail_extends_parent {} leafFirst (by decide) _ succeeds "leaf" _ rfl
  obtain ⟨trailAbove, isAbove, same⟩ := extends' "middle" rfl
  exact ⟨trail, trailAbove, succeeds, isTrail, isAbove, by rw [same]; rfl⟩

/-- When linking fails there is a first entry that does not reach the top, and the error tells how
the ascent from it ends: at an unknown parent, or at a parent that is on the ascent, whose names are
then reported in order. No entry before that one is on the ascent. -/
theorem linkAll_error_describes_ascent (settings : Settings) (all : Fields Breadcrumb)
    (distinct : Fields.Distinct all) (error : CompileError)
    (failed : (linkAll settings all).result = .error error) :
    ∃ before name breadcrumb after path, all = before ++ (name, breadcrumb) :: after ∧
      (∀ entry ∈ before, ReachesTop all entry.1) ∧ ¬ ReachesTop all name ∧
      path.head? = some (name, breadcrumb) ∧ Ascent all path ∧ Ending all path (some error) ∧
      ∀ entry ∈ before, entry.1 ∉ Fields.names path := by
  obtain ⟨before, name, breadcrumb, after, isSplit, clear, obstacle⟩ := linkEntries_eq_error failed
  have inMap : (name, breadcrumb) ∈ all := by
    rw [isSplit]
    exact List.mem_append_right _ List.mem_cons_self
  have within : ∀ entry ∈ before, entry ∈ all := by
    intro entry member
    rw [isSplit]
    exact List.mem_append_left _ member
  have found := Fields.get?_eq_some_of_mem distinct inMap
  have ascent := climbFrom_ascent found
  have ending := climbFrom_ending found
  rw [obstacle] at ending
  have reachBefore := (clear_iff_reachesTop distinct within).mp clear
  refine ⟨before, name, breadcrumb, after, _, isSplit, reachBefore,
    ascent.not_reachesTop ending (mem_names_climbFrom all name breadcrumb),
    climb_head? _ _ _ _ _, ascent, ending, ?_⟩
  intro entry member onPath
  exact ascent.not_reachesTop ending onPath (reachBefore entry member)

/-- The ascent that runs into the loop begins at some entry that does not reach the top. -/
theorem tailIntoLoop_error_describes_ascent :
    (linkAll {} tailIntoLoop).result = .error (.circularReference "c" ["leaf", "a", "b", "c"]) ∧
      ∃ name path, ¬ ReachesTop tailIntoLoop name ∧ Ascent tailIntoLoop path ∧
        Ending tailIntoLoop path (some (.circularReference "c" ["leaf", "a", "b", "c"])) := by
  have fails : (linkAll {} tailIntoLoop).result =
      .error (.circularReference "c" ["leaf", "a", "b", "c"]) := by cbv
  obtain ⟨-, name, -, -, path, -, -, stuck, -, ascent, ending, -⟩ :=
    linkAll_error_describes_ascent {} tailIntoLoop (by decide) _ fails
  exact ⟨fails, name, path, stuck, ascent, ending⟩

end MenuPlan.Trail

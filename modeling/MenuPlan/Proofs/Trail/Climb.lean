/-
# What a climb computes

`climb` follows parents while it takes the names that it visits out of the entries that remain. The
invariant `Climbing` ties these to the map: what has been visited is an ascent, and what remains is
the map without it. Every step keeps the invariant, so a climb from an entry of the map computes an
ascent that ends in one of the three ways of `Ending`, and it meets no obstacle exactly when the
entry reaches the top.
-/

import MenuPlan.Proofs.Trail.Ascent

namespace MenuPlan.Trail

variable {all remaining before : Fields Breadcrumb} {visited : List String} {name : String}
  {breadcrumb : Breadcrumb}

/-- The state of a climb that has come to an entry after those `before`: they form an ascent, their
names have been visited, and all other entries remain. -/
structure Climbing (all remaining before : Fields Breadcrumb) (visited : List String)
    (name : String) (breadcrumb : Breadcrumb) : Prop where
  ascent : Ascent all (before ++ [(name, breadcrumb)])
  path : visited.reverse = Fields.names (before ++ [(name, breadcrumb)])
  remains : ∀ other, Fields.get? remaining other =
    if other ∈ visited then none else Fields.get? all other

/-- A climb starts with the entry alone. -/
theorem Climbing.start (entry : Fields.get? all name = some breadcrumb) :
    Climbing all (Fields.erase all name) [] [name] name breadcrumb where
  ascent := Ascent.single entry
  path := rfl
  remains other := by
    rw [Fields.get?_erase]
    simp only [List.mem_singleton]

/-- The visited names are those on the path. -/
theorem Climbing.mem_visited_iff (state : Climbing all remaining before visited name breadcrumb)
    (other : String) :
    other ∈ visited ↔ other ∈ Fields.names (before ++ [(name, breadcrumb)]) := by
  rw [← state.path, List.mem_reverse]

/-- One step up: a parent that remains is an entry of the map that has not been visited. -/
theorem Climbing.up (state : Climbing all remaining before visited name breadcrumb)
    {parent : String} {next : Breadcrumb} (hasParent : breadcrumb.parent = some parent)
    (found : Fields.get? remaining parent = some next) :
    Climbing all (Fields.erase remaining parent) (before ++ [(name, breadcrumb)])
      (parent :: visited) parent next := by
  have unvisited : parent ∉ visited := by
    intro met
    rw [state.remains, if_pos met] at found
    cases found
  have entry : Fields.get? all parent = some next := by
    rw [state.remains, if_neg unvisited] at found
    exact found
  have fresh := fun onPath => unvisited ((state.mem_visited_iff parent).mpr onPath)
  refine ⟨state.ascent.snoc List.getLast?_concat hasParent entry fresh, ?_, ?_⟩
  · rw [List.reverse_cons, state.path, Fields.names_append (before ++ _)]
    rfl
  · intro other
    rw [Fields.get?_erase, state.remains]
    by_cases same : other = parent
    · rw [if_pos same, if_pos (same ▸ List.mem_cons_self)]
    · simp only [List.mem_cons, same, false_or, if_false]

/-- The error at an entry whose parent does not remain: the parent is unknown, or has been
visited. -/
theorem Climbing.obstructed (state : Climbing all remaining before visited name breadcrumb)
    {parent : String} (hasParent : breadcrumb.parent = some parent)
    (gone : Fields.get? remaining parent = none) :
    Ending all (before ++ [(name, breadcrumb)])
      (some (if (Fields.get? all parent).isSome then .circularReference name visited.reverse
        else .missingParent parent name)) := by
  by_cases known : (Fields.get? all parent).isSome
  · rw [if_pos known, state.path]
    apply Ending.repeated List.getLast?_concat hasParent
    by_contra fresh
    rw [← state.mem_visited_iff] at fresh
    rw [state.remains, if_neg fresh] at gone
    rw [gone] at known
    cases known
  · rw [if_neg known]
    apply Ending.unknown List.getLast?_concat hasParent
    rwa [← Fields.get?_isSome_iff]

/-- A climb in progress completes its path to an ascent and ends in one of the three ways. -/
theorem Climbing.climb (state : Climbing all remaining before visited name breadcrumb) :
    Ascent all (before ++ (climb all remaining visited name breadcrumb).path) ∧
      Ending all (before ++ (climb all remaining visited name breadcrumb).path)
        (climb all remaining visited name breadcrumb).obstacle := by
  fun_induction Trail.climb all remaining visited name breadcrumb generalizing before with
  | case1 remaining visited name breadcrumb noParent =>
      exact ⟨state.ascent, Ending.top List.getLast?_concat noParent⟩
  | case2 remaining visited name breadcrumb parent hasParent next found rest =>
      rename_i ih
      have later := ih (state.up hasParent found)
      rw [List.append_assoc] at later
      exact later
  | case3 remaining visited name breadcrumb parent hasParent gone =>
      exact ⟨state.ascent, state.obstructed hasParent gone⟩

/-- A climb begins with the entry that it starts from. -/
theorem climb_head? (all remaining : Fields Breadcrumb) (visited : List String) (name : String)
    (breadcrumb : Breadcrumb) :
    (climb all remaining visited name breadcrumb).path.head? = some (name, breadcrumb) := by
  rw [climb]
  split
  · rfl
  · split <;> rfl

/-- The entry that a climb starts from is on its path. -/
theorem mem_names_climbFrom (all : Fields Breadcrumb) (name : String) (breadcrumb : Breadcrumb) :
    name ∈ Fields.names (climbFrom all name breadcrumb).path := by
  have first :=
    List.mem_of_mem_head? (climb_head? all (Fields.erase all name) [name] name breadcrumb)
  exact List.mem_map.mpr ⟨(name, breadcrumb), first, rfl⟩

section FromEntry

variable (entry : Fields.get? all name = some breadcrumb)

include entry

theorem climbFrom_ascent : Ascent all (climbFrom all name breadcrumb).path :=
  (Climbing.start entry).climb.1

theorem climbFrom_ending :
    Ending all (climbFrom all name breadcrumb).path (climbFrom all name breadcrumb).obstacle :=
  (Climbing.start entry).climb.2

/-- A climb meets no obstacle exactly when its entry reaches the top. -/
theorem climbFrom_obstacle_eq_none_iff :
    (climbFrom all name breadcrumb).obstacle = none ↔ ReachesTop all name := by
  have ascent := climbFrom_ascent entry
  have ending := climbFrom_ending entry
  have onPath := mem_names_climbFrom all name breadcrumb
  constructor
  · intro clear
    rw [clear] at ending
    obtain ⟨isLast, noParent⟩ := ending
    exact ascent.reachesTop isLast noParent name onPath
  · intro reaches
    cases obstacle : (climbFrom all name breadcrumb).obstacle with
    | none => rfl
    | some error =>
        rw [obstacle] at ending
        exact absurd reaches (ascent.not_reachesTop ending onPath)

/-- The path of a climb to the top. -/
theorem climbFrom_ending_of_reachesTop (reaches : ReachesTop all name) :
    Ending all (climbFrom all name breadcrumb).path none := by
  rw [← (climbFrom_obstacle_eq_none_iff entry).mpr reaches]
  exact climbFrom_ending entry

/-- An entry without a parent is all of its path. -/
theorem climbFrom_path_of_no_parent (noParent : breadcrumb.parent = none) :
    (climbFrom all name breadcrumb).path = [(name, breadcrumb)] := by
  have alone : Ending all [(name, breadcrumb)] none := Ending.top List.getLast?_singleton noParent
  have ending := climbFrom_ending_of_reachesTop entry (ReachesTop.top entry noParent)
  exact (climbFrom_ascent entry).eq_of_top (Ascent.single entry)
    (climb_head? all (Fields.erase all name) [name] name breadcrumb) ending alone

/-- The path of an entry below a parent is the entry and then the path of the parent, which is
climbed independently. -/
theorem climbFrom_path_of_parent {parent : String} {above : Breadcrumb}
    (hasParent : breadcrumb.parent = some parent)
    (entryAbove : Fields.get? all parent = some above) (reaches : ReachesTop all parent) :
    (climbFrom all name breadcrumb).path =
      (name, breadcrumb) :: (climbFrom all parent above).path := by
  have ascent := climbFrom_ascent entry
  have ending := climbFrom_ending_of_reachesTop entry (ReachesTop.viaParent entry hasParent reaches)
  have begins := climb_head? all (Fields.erase all name) [name] name breadcrumb
  rw [← climbFrom] at begins
  rcases path : (climbFrom all name breadcrumb).path with _ | ⟨first, _ | ⟨next, rest⟩⟩
  · rw [path] at begins
    cases begins
  · rw [path] at begins ending
    obtain ⟨isLast, noParent⟩ := ending
    have isFirst : first = _ := Option.some.inj begins
    have same : first = _ := Option.some.inj isLast
    rw [← same, isFirst, hasParent] at noParent
    cases noParent
  · rw [path] at ascent begins ending
    have isFirst : first = (name, breadcrumb) := Option.some.inj begins
    have follows := (List.isChain_cons_cons.mp ascent.parents).1
    rw [isFirst, hasParent] at follows
    have entryNext := ascent.tail.entries next List.mem_cons_self
    rw [← Option.some.inj follows, entryAbove] at entryNext
    have isNext : next = (parent, above) :=
      Prod.ext (Option.some.inj follows).symm (Option.some.inj entryNext).symm
    have endsAbove : Ending all (next :: rest) none := by
      obtain ⟨isLast, noParent⟩ := ending
      rw [List.getLast?_cons_cons] at isLast
      exact Ending.top isLast noParent
    have beginsAbove := climb_head? all (Fields.erase all parent) [parent] parent above
    rw [← climbFrom, ← isNext] at beginsAbove
    rw [isFirst, ascent.tail.eq_of_top (climbFrom_ascent entryAbove) beginsAbove.symm endsAbove
      (climbFrom_ending_of_reachesTop entryAbove reaches)]

end FromEntry

end MenuPlan.Trail

/-
# Trails depend on ancestors only

A trail is decided by the entries that lie above its breadcrumb, and by nothing else in the map. The
argument has two steps. An ascent of one map is an ascent of any map that holds the same entries on
it, and so is its ending at the top; and a map has only one ascent from an entry to the top. So two
maps that agree above a name climb the same path from it.

Reordering a map changes no look-up at all. It therefore changes neither which maps link nor any
trail, and the remarks are the same up to their order.
-/

import MenuPlan.Proofs.Trail.Linking

namespace MenuPlan.Trail

variable {all more path : Fields Breadcrumb} {settings : Settings} {name : String}
  {breadcrumb : Breadcrumb}

/-- Steps to the parent lead from the first name to the second, or the two are the same. -/
inductive Above (all : Fields Breadcrumb) : String → String → Prop where
  | self {name : String} : Above all name name
  | viaParent {name parent other : String} {breadcrumb : Breadcrumb}
      (entry : Fields.get? all name = some breadcrumb)
      (hasParent : breadcrumb.parent = some parent) (above : Above all parent other) :
      Above all name other

/-- The second map has the entries of the first above a name. -/
def AgreeAbove (all more : Fields Breadcrumb) (name : String) : Prop :=
  ∀ other, Above all name other → Fields.get? more other = Fields.get? all other

/-- Agreement above a name is agreement above its parent. -/
theorem AgreeAbove.parent (agree : AgreeAbove all more name) {parent : String}
    (entry : Fields.get? all name = some breadcrumb) (hasParent : breadcrumb.parent = some parent) :
    AgreeAbove all more parent := by
  intro other above
  exact agree other (Above.viaParent entry hasParent above)

/-- What lies on an ascent lies above its first entry. -/
theorem Ascent.above (ascent : Ascent all path) {first : String × Breadcrumb}
    (isFirst : path.head? = some first) : ∀ entry ∈ path, Above all first.1 entry.1 := by
  induction path generalizing first with
  | nil => cases isFirst
  | cons start rest ih =>
      cases Option.some.inj isFirst
      intro entry member
      rcases List.mem_cons.mp member with rfl | later
      · exact Above.self
      · cases rest with
        | nil => cases later
        | cons next rest =>
            have hasParent := (List.isChain_cons_cons.mp ascent.parents).1
            have found := ascent.entries start List.mem_cons_self
            exact Above.viaParent found hasParent (ih ascent.tail rfl entry later)

/-- An ascent is one in every map that agrees above its first entry. -/
theorem Ascent.transport (ascent : Ascent all path) {first : String × Breadcrumb}
    (isFirst : path.head? = some first) (agree : AgreeAbove all more first.1) :
    Ascent more path where
  entries entry member := by
    rw [agree entry.1 (ascent.above isFirst entry member)]
    exact ascent.entries entry member
  parents := ascent.parents
  distinct := ascent.distinct

/-- To end at the top is a property of the ascent alone. -/
theorem Ending.transport (ending : Ending all path none) : Ending more path none := by
  obtain ⟨isLast, noParent⟩ := ending
  exact Ending.top isLast noParent

/-- The top is reached in every map that agrees above. -/
theorem ReachesTop.transport (reaches : ReachesTop all name) (agree : AgreeAbove all more name) :
    ReachesTop more name := by
  induction reaches with
  | top entry noParent =>
      rw [← agree _ Above.self] at entry
      exact ReachesTop.top entry noParent
  | viaParent entry hasParent _ ih =>
      have later := ih (agree.parent entry hasParent)
      rw [← agree _ Above.self] at entry
      exact ReachesTop.viaParent entry hasParent later

/-- Maps that agree above an entry climb the same path from it: the path climbed in the one is an
ascent of the other, which has only one. -/
theorem climbFrom_path_eq_of_agree (entry : Fields.get? all name = some breadcrumb)
    (reaches : ReachesTop all name) (agree : AgreeAbove all more name) :
    (climbFrom more name breadcrumb).path = (climbFrom all name breadcrumb).path := by
  have begins : (climbFrom all name breadcrumb).path.head? = some (name, breadcrumb) :=
    climb_head? all _ _ name breadcrumb
  have beginsMore : (climbFrom more name breadcrumb).path.head? = some (name, breadcrumb) :=
    climb_head? more _ _ name breadcrumb
  have entryMore : Fields.get? more name = some breadcrumb := by
    rw [agree name Above.self, entry]
  have carried : Ascent more (climbFrom all name breadcrumb).path :=
    (climbFrom_ascent entry).transport begins agree
  have ending : Ending more (climbFrom all name breadcrumb).path none :=
    (climbFrom_ending_of_reachesTop entry reaches).transport
  have endingMore : Ending more (climbFrom more name breadcrumb).path none :=
    climbFrom_ending_of_reachesTop entryMore (reaches.transport agree)
  apply (climbFrom_ascent entryMore).eq_of_top carried _ endingMore ending
  rw [begins, beginsMore]

/-- The trail of an entry is the same in every map that agrees above it. -/
theorem get?_linked_eq_of_agree (entry : Fields.get? all name = some breadcrumb)
    (reaches : ReachesTop all name) (agree : AgreeAbove all more name) :
    Fields.get? (linked settings more more) name = Fields.get? (linked settings all all) name := by
  have entryMore : Fields.get? more name = some breadcrumb := by
    rw [agree name Above.self, entry]
  rw [get?_linked_of_entry entry, get?_linked_of_entry entryMore,
    climbFrom_path_eq_of_agree entry reaches agree]

/-- All entries of a map are clear exactly when they all reach the top. -/
theorem clear_self_iff_reachesTop (distinct : Fields.Distinct all) :
    Clear all all ↔ ∀ entry ∈ all, ReachesTop all entry.1 :=
  clear_iff_reachesTop distinct fun _ member => member

/-- Reordered maps agree everywhere. -/
theorem agreeAbove_of_perm (distinct : Fields.Distinct all) (reordered : all.Perm more)
    (name : String) : AgreeAbove all more name := by
  intro other _
  exact Fields.get?_of_perm distinct reordered other

/-- Every entry of a map reaches the top if every entry of a reordered map does. -/
theorem clear_of_perm (distinct : Fields.Distinct all) (distinctMore : Fields.Distinct more)
    (reordered : all.Perm more) (clear : Clear all all) : Clear more more := by
  rw [clear_self_iff_reachesTop distinctMore]
  rw [clear_self_iff_reachesTop distinct] at clear
  intro entry member
  have reaches := clear entry (reordered.mem_iff.mpr member)
  exact reaches.transport (agreeAbove_of_perm distinct reordered entry.1)

/-- A reordered map links if the map does. -/
theorem linkAll_succeeds_of_perm (distinct : Fields.Distinct all)
    (distinctMore : Fields.Distinct more) (reordered : all.Perm more)
    (succeeds : ∃ trails, (linkAll settings all).result = .ok trails) :
    ∃ trails, (linkAll settings more).result = .ok trails := by
  obtain ⟨trails, isLinked⟩ := succeeds
  have clear := ((linkAll_eq_ok_iff trails).mp isLinked).1
  have clearMore := clear_of_perm distinct distinctMore reordered clear
  exact ⟨_, (linkAll_eq_ok_iff _).mpr ⟨clearMore, rfl⟩⟩

/-- A reordered map has the same trail under every name. -/
theorem get?_linked_of_perm (distinct : Fields.Distinct all) (reordered : all.Perm more)
    (clear : Clear all all) (name : String) :
    Fields.get? (linked settings more more) name = Fields.get? (linked settings all all) name := by
  cases entry : Fields.get? all name with
  | some breadcrumb =>
      have reaches := (clear_self_iff_reachesTop distinct).mp clear _
        (Fields.mem_of_get?_eq_some entry)
      exact get?_linked_eq_of_agree entry reaches (agreeAbove_of_perm distinct reordered name)
  | none =>
      have absent : Fields.get? more name = none := by
        rw [Fields.get?_of_perm distinct reordered name, entry]
      rw [Fields.get?_eq_none_iff] at entry absent
      rw [(Fields.get?_eq_none_iff _ name).mpr (by rwa [names_linked]),
        (Fields.get?_eq_none_iff _ name).mpr (by rwa [names_linked])]

/-- The remarks on a map without obstacles. -/
theorem linkEntries_raised_of_clear {entries : Fields Breadcrumb} (clear : Clear all entries) :
    (linkEntries settings all entries).raised =
      entries.flatMap fun entry => pathWarnings (climbFrom all entry.1 entry.2).path := by
  induction entries with
  | nil => rfl
  | cons entry rest ih =>
      obtain ⟨top, clearRest⟩ := List.forall_mem_cons.mp clear
      simp only [linkEntries, link_result_of_top top, List.flatMap_cons, ih clearRest]
      rfl

/-- Reordering a map without obstacles reorders the remarks on it. -/
theorem linkAll_raised_perm (distinct : Fields.Distinct all) (distinctMore : Fields.Distinct more)
    (reordered : all.Perm more) (clear : Clear all all) :
    (linkAll settings all).raised.Perm (linkAll settings more).raised := by
  have clearMore := clear_of_perm distinct distinctMore reordered clear
  have reaches := (clear_self_iff_reachesTop distinct).mp clear
  rw [linkAll, linkAll, linkEntries_raised_of_clear clear, linkEntries_raised_of_clear clearMore]
  have samePaths : ∀ entry ∈ all, pathWarnings (climbFrom all entry.1 entry.2).path =
      pathWarnings (climbFrom more entry.1 entry.2).path := by
    intro entry member
    have found := Fields.get?_eq_some_of_mem distinct member
    rw [climbFrom_path_eq_of_agree found (reaches entry member)
      (agreeAbove_of_perm distinct reordered entry.1)]
  rw [List.flatMap_congr samePaths]
  exact reordered.flatMap_right _

/-- The chain of `leafFirst` in another order, with another leaf and a stranger in between. -/
def otherLeaf : Fields Breadcrumb := [
  ("top", { item := { attributes := [("label", .string "Top")] } }),
  ("stranger", { parent := some "leaf" }),
  ("leaf", { parent := some "top" }),
  ("middle", { parent := some "top", item := { service := some { id := "app.middle" } } })]

/-- Trails are local: two maps that link have the same trail for a name above which they agree. And
the order of a map is of no account: a reordered map links exactly when the map does, with the same
trails under the same names and the same warnings. -/
theorem linkAll_trail_depends_on_ancestors (settings : Settings) (all more : Fields Breadcrumb)
    (distinct : Fields.Distinct all) (distinctMore : Fields.Distinct more) :
    (∀ trails trailsMore, (linkAll settings all).result = .ok trails →
        (linkAll settings more).result = .ok trailsMore →
      ∀ name ∈ Fields.names all, AgreeAbove all more name →
        ∃ trail, Fields.get? trails name = some trail ∧
          Fields.get? trailsMore name = some trail) ∧
      (all.Perm more →
        ((∃ trails, (linkAll settings all).result = .ok trails) ↔
          ∃ trailsMore, (linkAll settings more).result = .ok trailsMore) ∧
        ∀ trails trailsMore, (linkAll settings all).result = .ok trails →
            (linkAll settings more).result = .ok trailsMore →
          (∀ name, Fields.get? trailsMore name = Fields.get? trails name) ∧
            ∀ warning, warning ∈ Warning.collect [] (linkAll settings more).raised ↔
              warning ∈ Warning.collect [] (linkAll settings all).raised) := by
  constructor
  · intro trails trailsMore succeeds succeedsMore name known agree
    obtain ⟨clear, rfl⟩ := (linkAll_eq_ok_iff trails).mp succeeds
    obtain ⟨-, rfl⟩ := (linkAll_eq_ok_iff trailsMore).mp succeedsMore
    obtain ⟨breadcrumb, entry⟩ :=
      Option.isSome_iff_exists.mp ((Fields.get?_isSome_iff all name).mpr known)
    have reaches := (clear_self_iff_reachesTop distinct).mp clear _
      (Fields.mem_of_get?_eq_some entry)
    refine ⟨_, get?_linked_of_entry entry, ?_⟩
    rw [get?_linked_eq_of_agree entry reaches agree, get?_linked_of_entry entry]
  · intro reordered
    constructor
    · exact ⟨linkAll_succeeds_of_perm distinct distinctMore reordered,
        linkAll_succeeds_of_perm distinctMore distinct reordered.symm⟩
    · intro trails trailsMore succeeds succeedsMore
      obtain ⟨clear, rfl⟩ := (linkAll_eq_ok_iff trails).mp succeeds
      obtain ⟨-, rfl⟩ := (linkAll_eq_ok_iff trailsMore).mp succeedsMore
      refine ⟨get?_linked_of_perm distinct reordered clear, ?_⟩
      intro warning
      rw [Warning.mem_collect, Warning.mem_collect,
        (linkAll_raised_perm distinct distinctMore reordered clear).mem_iff]

/-- Another leaf, a stranger and another order do not change the trail of the middle, and a reversed
map links as the map does. -/
theorem leafFirst_trail_depends_on_ancestors :
    (∃ trail, Fields.get? (linked {} leafFirst leafFirst) "middle" = some trail ∧
        Fields.get? (linked {} otherLeaf otherLeaf) "middle" = some trail) ∧
      ∀ name, Fields.get? (linked {} leafFirst.reverse leafFirst.reverse) name =
        Fields.get? (linked {} leafFirst leafFirst) name := by
  have succeeds : (linkAll {} leafFirst).result = .ok (linked {} leafFirst leafFirst) := by cbv
  have succeedsOther : (linkAll {} otherLeaf).result = .ok (linked {} otherLeaf otherLeaf) := by
    cbv
  have succeedsReversed : (linkAll {} leafFirst.reverse).result =
      .ok (linked {} leafFirst.reverse leafFirst.reverse) := by cbv
  have agree : AgreeAbove leafFirst otherLeaf "middle" := by
    intro other above
    rcases above with _ | ⟨entry, hasParent, above⟩
    · rfl
    · cases entry
      cases hasParent
      rcases above with _ | ⟨entry, hasParent, -⟩
      · rfl
      · cases entry
        cases hasParent
  have one := linkAll_trail_depends_on_ancestors {} leafFirst otherLeaf (by decide) (by decide)
  have two :=
    linkAll_trail_depends_on_ancestors {} leafFirst leafFirst.reverse (by decide) (by decide)
  refine ⟨one.1 _ _ succeeds succeedsOther "middle" (by decide) agree, ?_⟩
  exact ((two.2 leafFirst.reverse_perm.symm).2 _ _ succeeds succeedsReversed).1

end MenuPlan.Trail

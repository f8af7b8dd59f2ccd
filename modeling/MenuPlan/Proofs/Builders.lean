/-
# What a builder remembers

A builder serves requests one after another, and its log is all that it carries from one to the next.
A step *tells* remarks if it has one and the same value whatever it finds in the log, and the log
then goes on with these remarks. Steps that tell are closed under sequencing, up to the step that
fails, so that every function that builds tells the remarks of the function that it stands beside:
`Item.build` those of `Item.warnings`, and so on. The log can then decide which remarks are new, and
nothing else.
-/

import MenuPlan.Builder
import MenuPlan.Proofs.Plan.Failure
import MenuPlan.Proofs.Plan.Remarks

namespace MenuPlan

open Warning (collect)

/-- Remarks are collected in parts. -/
theorem Warning.collect_append (known first second : List Warning) :
    collect known (first ++ second) = collect (collect known first) second :=
  List.foldl_append

namespace Telling

variable {α β : Type} {value : α} {result : β} {raised later : List Warning}

/-- A step has this value and tells these remarks, whatever has been told before. -/
def Tells (step : Telling α) (value : α) (raised : List Warning) : Prop :=
  ∀ known, step.run known = (value, collect known raised)

/-- A step that only returns tells nothing. -/
theorem Tells.pure (value : α) : Tells (Pure.pure value) value [] :=
  fun _ => rfl

/-- Steps in sequence tell one after the other. -/
theorem Tells.bind {step : Telling α} {next : α → Telling β} (first : Tells step value raised)
    (second : Tells (next value) result later) :
    Tells (step >>= next) result (raised ++ later) := by
  intro known
  rw [StateT.run_bind, first known, Warning.collect_append]
  exact second _

/-- What a step gives can be worked into something else. -/
theorem Tells.finish {step : Telling α} (first : Tells step value raised) (f : α → β) :
    Tells (step >>= fun value => Pure.pure (f value)) (f value) raised := by
  rw [← List.append_nil raised]
  exact first.bind (.pure _)

/-- A remark is told. -/
theorem Tells.tell (warning : Warning) : Tells warning.tell () [warning] :=
  fun _ => rfl

/-- Remarks are told in order. -/
theorem Tells.tellAll (warnings : List Warning) :
    Tells (Warning.tellAll warnings) () warnings := by
  induction warnings with
  | nil => exact .pure ()
  | cons warning rest ih => exact (Tells.tell warning).bind ih

end Telling

open Telling (Tells)

namespace Building

variable {α β : Type} {value : α} {result : Except CompileError β} {raised later : List Warning}

/-- A step comes to an outcome, whatever has been told before. -/
def ComesTo (step : Building α) (outcome : Outcome α) : Prop :=
  Tells step.run outcome.result outcome.raised

/-- A step that only returns. -/
theorem ComesTo.pure (value : α) : ComesTo (Pure.pure value) ⟨.ok value, []⟩ :=
  Tells.pure _

/-- A step that fails. -/
theorem ComesTo.throw (error : CompileError) :
    ComesTo (MonadExcept.throw error : Building α) ⟨.error error, []⟩ :=
  Tells.pure _

/-- A check that succeeds leaves its value to what follows. -/
theorem liftM_ok_bind (value : α) (next : α → Building β) :
    (liftM (Except.ok value : Except CompileError α) : Building α) >>= next = next value :=
  rfl

/-- A step that cannot fail. -/
theorem ComesTo.lift {step : Telling α} (tells : Tells step value raised) :
    ComesTo (liftM step : Building α) ⟨.ok value, raised⟩ := by
  intro known
  exact congrArg (fun told => (Except.ok told.1, told.2)) (tells known)

/-- After a step that succeeds comes the next. -/
theorem ComesTo.bind {step : Building α} {next : α → Building β}
    (first : ComesTo step ⟨.ok value, raised⟩) (second : ComesTo (next value) ⟨result, later⟩) :
    ComesTo (step >>= next) ⟨result, raised ++ later⟩ := by
  rw [ComesTo, ExceptT.run_bind]
  exact Tells.bind first second

/-- A step that fails is the last. -/
theorem ComesTo.stop {step : Building α} {error : CompileError} {next : α → Building β}
    (first : ComesTo step ⟨.error error, raised⟩) :
    ComesTo (step >>= next) ⟨.error error, raised⟩ := by
  rw [ComesTo, ExceptT.run_bind]
  change Tells _ _ raised
  rw [← List.append_nil raised]
  exact Tells.bind first (.pure _)

/-- What a step gives can be worked into something else. -/
theorem ComesTo.finish {step : Building β} (first : ComesTo step ⟨result, raised⟩) (f : β → α) :
    ComesTo (step >>= fun value => Pure.pure (f value)) ⟨f <$> result, raised⟩ := by
  cases result with
  | error error => exact first.stop
  | ok value =>
      rw [← List.append_nil raised]
      apply first.bind
      exact .pure (f value)

end Building

open Building (ComesTo)

variable (settings : Settings)

namespace Item

mutual

/-- Building an item gives its instruction and tells the remarks on it. -/
theorem tells_build (location name : String) (item : Item) :
    Tells (build settings location name item) (instruction settings name item)
      (warnings location item) := by
  obtain ⟨options, route, service, expression, children, attributes⟩ := item
  unfold build instruction warnings
  apply (Tells.tellAll _).bind
  cases service with
  | some service => exact (Tells.tellAll _).finish _
  | none =>
      cases expression.filter (· ≠ "") with
      | some source => exact .pure _
      | none => exact (tells_buildChildren location children).finish _

/-- Building the items below a location tells the remarks on all of them. -/
theorem tells_buildChildren (location : String) (children : List (String × Item)) :
    Tells (buildChildren settings location children) (childCalls settings children)
      (childWarnings location children) := by
  match children with
  | [] => exact .pure []
  | (name, child) :: rest =>
      rw [buildChildren, childCalls, childWarnings]
      exact (tells_build _ name child).bind ((tells_buildChildren location rest).finish _)

end

end Item

namespace Menu

/-- Building the items of a menu tells the remarks on those that are read. -/
theorem comesTo_buildItems (menu : String) (items : List (String × Data)) :
    ComesTo (buildItems settings menu items) (itemCalls settings menu items) := by
  induction items with
  | nil => exact .pure []
  | cons raw rest ih =>
      obtain ⟨name, raw⟩ := raw
      rw [buildItems, itemCalls]
      cases Item.normalize settings.strictItems (itemLocation menu name) raw with
      | error error => exact .throw error
      | ok item =>
          rw [Building.liftM_ok_bind]
          have isBuilt := ComesTo.lift (item.tells_build settings (itemLocation menu name) name)
          exact isBuilt.bind (ih.finish _)

/-- Building a menu tells the remarks on its items up to the first that is refused. -/
theorem comesTo_build (name : String) (menu : Menu) :
    ComesTo (build settings name menu) (menu.instruction settings name) :=
  (comesTo_buildItems settings name menu.items).finish _

end Menu

namespace Trail

/-- The calls for the breadcrumbs of a climb that reaches the top, the first one first. -/
def climbCalls (settings : Settings) (climb : Climb) : Except CompileError (List Call) :=
  climb.obstacle.elim
    (.ok (climb.path.map fun (name, breadcrumb) =>
      .addChild name (breadcrumb.item.instruction settings name))) .error

/-- The call for the first breadcrumb comes before those above it. -/
theorem climbCalls_cons (name : String) (breadcrumb : Breadcrumb) (above : Climb) :
    climbCalls settings { above with path := (name, breadcrumb) :: above.path } =
      (.addChild name (breadcrumb.item.instruction settings name) :: ·) <$>
        climbCalls settings above := by
  obtain ⟨path, _ | error⟩ := above
  · rfl
  · rfl

/-- Building on a climb tells the remarks on its path, up to an obstacle. -/
theorem comesTo_buildClimb (all remaining : Fields Breadcrumb) (visited : List String)
    (name : String) (breadcrumb : Breadcrumb) :
    ComesTo (buildClimb settings all remaining visited name breadcrumb)
      ⟨climbCalls settings (climb all remaining visited name breadcrumb),
        pathWarnings (climb all remaining visited name breadcrumb).path⟩ := by
  have isBuilt := fun name (breadcrumb : Breadcrumb) =>
    ComesTo.lift (breadcrumb.item.tells_build settings (location name) name)
  fun_induction climb all remaining visited name breadcrumb with
  | case1 remaining visited name breadcrumb noParent =>
      rw [buildClimb]
      simp only [noParent]
      apply (isBuilt name breadcrumb).bind
      exact .pure _
  | case2 remaining visited name breadcrumb parent hasParent next found above ih =>
      rw [buildClimb]
      simp only [hasParent]
      split
      case h_2 gone => cases found.symm.trans gone
      case h_1 _ isNext =>
        cases found.symm.trans isNext
        rw [climbCalls_cons]
        apply (isBuilt name breadcrumb).bind
        exact ih.finish _
  | case3 remaining visited name breadcrumb parent hasParent gone =>
      rw [buildClimb]
      simp only [hasParent]
      split
      case h_1 _ found => cases gone.symm.trans found
      case h_2 =>
        apply (isBuilt name breadcrumb).bind
        split_ifs
        · exact .throw _
        · exact .throw _

/-- A trail has the calls of the climb, the last one first. -/
theorem link_eq_climbCalls (all : Fields Breadcrumb) (name : String) (breadcrumb : Breadcrumb) :
    link settings all name breadcrumb =
      let climb := climbFrom all name breadcrumb
      { result := (fun calls => { settings.rootCall name [] with calls := calls.reverse }) <$>
          climbCalls settings climb
        raised := pathWarnings climb.path } := by
  rw [link]
  obtain ⟨path, _ | error⟩ := climbFrom all name breadcrumb
  · simp only [climbCalls, Option.elim, ofPath, List.map_reverse]
    rfl
  · rfl

/-- Building a trail tells the remarks on the path of its climb. -/
theorem comesTo_build (all : Fields Breadcrumb) (name : String) (breadcrumb : Breadcrumb) :
    ComesTo (build settings all name breadcrumb) (link settings all name breadcrumb) := by
  rw [build, link_eq_climbCalls]
  exact (comesTo_buildClimb settings all (Fields.erase all name) [name] name breadcrumb).finish _

/-- Building the trails of entries tells the remarks on the path from each of them, up to the first
that meets an obstacle. -/
theorem comesTo_buildEntries (all entries : Fields Breadcrumb) :
    ComesTo (buildEntries settings all entries) (linkEntries settings all entries) := by
  induction entries with
  | nil => exact .pure []
  | cons entry rest ih =>
      obtain ⟨name, breadcrumb⟩ := entry
      have isBuilt := comesTo_build settings all name breadcrumb
      rw [buildEntries, linkEntries]
      revert isBuilt
      rcases link settings all name breadcrumb with ⟨error | instruction, raised⟩
      · exact ComesTo.stop
      · intro isBuilt
        exact isBuilt.bind (ih.finish _)

/-- Building all trails. -/
theorem comesTo_buildAll (all : Fields Breadcrumb) :
    ComesTo (buildAll settings all) (linkAll settings all) :=
  comesTo_buildEntries settings all all

end Trail

/-- What becomes of a request. -/
def BuildRequest.outcome (settings : Settings) : BuildRequest → Outcome Instruction
  | .item name read => ⟨.ok (read.instruction settings name), read.warnings name⟩
  | .menu name written => written.instruction settings name

/-- A request is answered by what becomes of it. -/
theorem BuildRequest.comesTo_answer (request : BuildRequest) :
    ComesTo (request.answer settings) (request.outcome settings) := by
  cases request with
  | item name read => exact .lift (read.tells_build settings name name)
  | menu name written => exact written.comesTo_build settings name

/-! ## Requests -/

/-- What is collected after other remarks are those of what is collected afresh that are new. -/
theorem Warning.collect_eq_append_filter (known raised : List Warning) :
    collect known raised = known ++ (collect [] raised).filter (· ∉ known) := by
  induction raised using List.reverseRecOn with
  | nil => exact (List.append_nil known).symm
  | append_singleton earlier warning ih =>
      have collectOne : ∀ log, collect log [warning] =
          if warning ∈ log then log else log ++ [warning] := fun _ => rfl
      simp only [collect_append, collectOne, mem_collect, List.not_mem_nil, false_or]
      by_cases again : warning ∈ earlier
      · rw [if_pos (.inr again), if_pos again, ih]
      · rw [if_neg again, List.filter_append, ← List.append_assoc, ← ih]
        by_cases before : warning ∈ known
        · rw [if_pos (.inl before), List.filter_cons_of_neg (by simpa using before)]
          exact (List.append_nil _).symm
        · rw [if_neg (by simp only [before, again, or_self, not_false_eq_true]),
            List.filter_cons_of_pos (by simpa using before)]
          rfl

namespace Building

variable {ρ α : Type}

/-- A builder answers each request as it would answer it first, and its history shows only in the
log. There the request adds the remarks that it would tell first, in their order, without those that
are there already. -/
structure HistoryFree (answer : ρ → Building α) : Prop where
  answers : ∀ requests, ((serve answer requests).run []).1 =
    requests.map fun request => ((answer request).run.run []).1
  log : ∀ history request,
    let known := ((serve answer history).run []).2
    ((serve answer (history ++ [request])).run []).2 =
      known ++ ((answer request).run.run []).2.filter (· ∉ known)
  distinct : ∀ requests, ((serve answer requests).run []).2.Nodup

variable {answer : ρ → Building α} {outcome : ρ → Outcome α}
  (comesTo : ∀ request, ComesTo (answer request) (outcome request))

include comesTo

/-- Requests are answered by their outcomes, and tell all remarks of these. -/
theorem tells_serve (requests : List ρ) :
    Tells (serve answer requests) (requests.map fun request => (outcome request).result)
      (requests.flatMap fun request => (outcome request).raised) := by
  induction requests with
  | nil => exact .pure []
  | cons request rest ih =>
      rw [serve, List.mapM_cons]
      exact Tells.bind (comesTo request) (ih.finish _)

/-- Steps that come to the same outcome whatever has been told before are free of their history. -/
theorem historyFree_of_comesTo : HistoryFree answer where
  answers requests := by
    rw [tells_serve comesTo]
    exact List.map_congr_left fun request _ => (congrArg Prod.fst (comesTo request [])).symm
  log history request := by
    intro known
    have isKnown : known = collect [] (history.flatMap fun request => (outcome request).raised) :=
      congrArg Prod.snd (tells_serve comesTo history [])
    have isTold : ((answer request).run.run []).2 = collect [] (outcome request).raised :=
      congrArg Prod.snd (comesTo request [])
    rw [tells_serve comesTo, isTold, List.flatMap_append, List.flatMap_singleton,
      Warning.collect_append, ← isKnown, ← Warning.collect_eq_append_filter]
  distinct requests := by
    rw [tells_serve comesTo]
    exact Warning.nodup_collect List.nodup_nil _

end Building

variable {settings}

/-- A menu that fails has remarked on the items before the one that is refused. -/
theorem Menu.raised_itemCalls_of_error {menu : String} {items : List (String × Data)}
    {error : CompileError} (failed : (itemCalls settings menu items).result = .error error) :
    ∃ before raw after read, items = before ++ raw :: after ∧
      List.Forall₂ (IsItemOf settings menu) before read ∧
      Item.normalize settings.strictItems ("menus." ++ menu ++ ".items." ++ raw.1) raw.2 =
        .error error ∧
      (itemCalls settings menu items).raised =
        read.flatMap fun item => item.2.warnings ("menus." ++ menu ++ ".items." ++ item.1) := by
  induction items with
  | nil => cases failed
  | cons first rest ih =>
      rw [itemCalls] at failed ⊢
      cases isRead : Item.normalize settings.strictItems (itemLocation menu first.1) first.2 with
      | error refusal =>
          rw [isRead] at failed
          cases failed
          exact ⟨[], first, rest, [], rfl, .nil, isRead, rfl⟩
      | ok item =>
          rw [isRead] at failed
          obtain ⟨before, raw, after, read, rfl, areRead, isRefused, isRaised⟩ :=
            ih (map_eq_error_iff.mp failed)
          refine ⟨first :: before, raw, after, (first.1, item) :: read, rfl,
            .cons ⟨rfl, isRead⟩ areRead, isRefused, ?_⟩
          dsimp only
          rw [isRaised]
          rfl

/-- A map of breadcrumbs that fails has been remarked upon along the paths from the entries before
the one that meets an obstacle, and along the path from that one. -/
theorem Trail.raised_linkEntries_of_obstacle {all entries before after : Fields Breadcrumb}
    {name : String} {breadcrumb : Breadcrumb} {error : CompileError}
    (isSplit : entries = before ++ (name, breadcrumb) :: after) (clear : Clear all before)
    (obstacle : (climbFrom all name breadcrumb).obstacle = some error) :
    (linkEntries settings all entries).raised =
      (before ++ [(name, breadcrumb)]).flatMap fun entry =>
        pathWarnings (climbFrom all entry.1 entry.2).path := by
  subst isSplit
  induction before with
  | nil =>
      have stopped : (link settings all name breadcrumb).result = .error error := by
        simp only [link, obstacle, Option.elim]
      simp only [List.nil_append, linkEntries, stopped, List.flatMap_singleton]
      rfl
  | cons entry rest ih =>
      obtain ⟨top, clearRest⟩ := List.forall_mem_cons.mp clear
      simp only [List.cons_append, linkEntries, link_result_of_top top, List.flatMap_cons,
        ih clearRest]
      rfl

/-! ## Compilations -/

/-- Menus that succeed are remarked upon one after another. -/
theorem Plan.raised_menuEntries_eq_flatMap {menus : Fields Menu} {entries : Fields Instruction}
    (succeeded : (menuEntries settings menus).result = .ok entries) :
    (menuEntries settings menus).raised =
      menus.flatMap fun menu => (menu.2.instruction settings menu.1).raised := by
  induction menus generalizing entries with
  | nil => rfl
  | cons menu rest ih =>
      rw [menuEntries] at succeeded ⊢
      cases isRoot : (menu.2.instruction settings menu.1).result with
      | error error =>
          rw [isRoot] at succeeded
          cases succeeded
      | ok root =>
          rw [isRoot] at succeeded
          obtain ⟨later, isLater, -⟩ := map_eq_ok_iff.mp succeeded
          dsimp only
          rw [List.flatMap_cons, ih isLater]

/-- A compilation has the warnings of one builder that is asked for all menus, and of another one that
is asked for all trails. -/
theorem Outline.warnings_eq_logs {outline : Outline} {compiled : Compiled}
    (succeeded : outline.compile settings = .ok compiled) :
    ∃ breadcrumbs, Plan.readBreadcrumbs settings outline.breadcrumbs = .ok breadcrumbs ∧
      compiled.warnings =
        ((Building.serve (BuildRequest.answer settings)
          (outline.menus.map fun menu => .menu menu.1 menu.2)).run []).2 ++
        ((Trail.buildAll settings breadcrumbs).run.run []).2 := by
  obtain ⟨entries, breadcrumbs, trails, isMenus, isRead, isLinked, -, isWarnings⟩ :=
    compile_eq_ok_iff.mp succeeded
  refine ⟨breadcrumbs, isRead, ?_⟩
  rw [isWarnings, Plan.raised_menuEntries_eq_flatMap isMenus,
    Trail.comesTo_buildAll settings breadcrumbs,
    Building.tells_serve (BuildRequest.comesTo_answer settings), List.flatMap_map]
  rfl

namespace Building

/-- A builder of menus and a linker of breadcrumbs are free of their history: whatever they have been
asked before, and whether it failed or not, they answer the next request as it would be answered
first, and their log of distinct remarks goes on with the remarks that the request would tell first
and that are not there yet, in their order.

A request that fails tells what it has come across before. A menu has remarked on its items up to
the first that is refused; and breadcrumbs have been remarked upon along the climbs from all entries
up to the first whose climb meets an obstacle, and along this climb. -/
theorem builders_are_free_of_history (settings : Settings) :
    HistoryFree (BuildRequest.answer settings) ∧
    HistoryFree (Trail.buildAll settings) ∧
    (∀ request error, ((BuildRequest.answer settings request).run.run []).1 = .error error →
      ∃ name menu before raw after read,
        request = .menu name menu ∧ menu.items = before ++ raw :: after ∧
        List.Forall₂ (Menu.IsItemOf settings name) before read ∧
        Item.normalize settings.strictItems ("menus." ++ name ++ ".items." ++ raw.1) raw.2 =
          .error error ∧
        ((BuildRequest.answer settings request).run.run []).2 =
          (read.flatMap fun item =>
            item.2.warnings ("menus." ++ name ++ ".items." ++ item.1)).eraseDups) ∧
    ∀ all error, ((Trail.buildAll settings all).run.run []).1 = .error error →
      ∃ before name breadcrumb after,
        all = before ++ (name, breadcrumb) :: after ∧
        (∀ entry ∈ before, (Trail.climbFrom all entry.1 entry.2).obstacle = none) ∧
        (Trail.climbFrom all name breadcrumb).obstacle = some error ∧
        ((Trail.buildAll settings all).run.run []).2 =
          ((before ++ [(name, breadcrumb)]).flatMap fun entry =>
            (Trail.climbFrom all entry.1 entry.2).path.flatMap fun step =>
              step.2.item.warnings ("breadcrumbs." ++ step.1)).eraseDups := by
  refine ⟨historyFree_of_comesTo (BuildRequest.comesTo_answer settings),
    historyFree_of_comesTo (Trail.comesTo_buildAll settings), ?_, ?_⟩
  · intro request error failed
    rw [BuildRequest.comesTo_answer] at failed ⊢
    cases request with
    | item name item => cases failed
    | menu name menu =>
        obtain ⟨before, raw, after, read, isSplit, areRead, isRefused, isRaised⟩ :=
          Menu.raised_itemCalls_of_error (map_eq_error_iff.mp failed)
        refine ⟨name, menu, before, raw, after, read, rfl, isSplit, areRead, isRefused, ?_⟩
        rw [← isRaised, ← Warning.collect_nil_eq_eraseDups]
        rfl
  · intro all error failed
    rw [Trail.comesTo_buildAll] at failed ⊢
    obtain ⟨before, name, breadcrumb, after, isSplit, clear, obstacle⟩ :=
      Trail.linkEntries_eq_error failed
    refine ⟨before, name, breadcrumb, after, isSplit, clear, obstacle, ?_⟩
    rw [Trail.linkAll, Trail.raised_linkEntries_of_obstacle isSplit clear obstacle]
    exact Warning.collect_nil_eq_eraseDups _

/-- A menu whose second item is refused, after a remark on the first. -/
def refusedAfterRemark : BuildRequest :=
  .menu "main" { items := [
    ("idle", .object [("service", .object [("id", .string "app.idle"), ("parameters", .array [])])]),
    ("about", .object [("icon", .null)])] }

/-- Asked for twice, the menu fails twice for the same item, and its remark is in the log once. -/
theorem refusedAfterRemark_is_free_of_history :
    let failure : Except CompileError Instruction := .error (.validation "menus.main.items.about"
      "Additional properties are not allowed ('icon' was unexpected)")
    let twice := (serve (BuildRequest.answer {}) [refusedAfterRemark, refusedAfterRemark]).run []
    ((refusedAfterRemark.answer {}).run.run []).1 = failure ∧
      (∃ name menu, refusedAfterRemark = .menu name menu ∧ ∃ raw ∈ menu.items,
        Menu.RefusesItem {} name raw) ∧
      twice.1 = [failure, failure] ∧
      twice.2.map Warning.location = [some "menus.main.items.idle"] ∧ twice.2.Nodup := by
  intro failure twice
  obtain ⟨menus, -, fails, -⟩ := builders_are_free_of_history {}
  have isFailure : ((refusedAfterRemark.answer {}).run.run []).1 = failure := by rfl
  refine ⟨isFailure, ?_, ?_, ?_, menus.distinct _⟩
  · obtain ⟨name, menu, before, raw, after, -, isMenu, isSplit, -, isRefused, -⟩ :=
      fails refusedAfterRemark _ isFailure
    refine ⟨name, menu, isMenu, raw, ?_, _, isRefused⟩
    rw [isSplit]
    exact List.mem_append_right _ List.mem_cons_self
  · rw [menus.answers, List.map_cons, List.map_singleton, isFailure]
  · have goesOn := menus.log [refusedAfterRemark] refusedAfterRemark
    exact (congrArg (List.map Warning.location) goesOn).trans rfl

end Building

end MenuPlan

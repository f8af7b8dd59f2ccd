/-
# What is remarked about an item

An item is remarked upon together with the items below it, in one traversal that stops where an item
is provided from outside. This module takes the two matters apart. `sites` lists every place in the
tree of an item in pre-order, with the items above it, and `remarks` says what there is to remark at
one place, in words of its own. The main result is that the remarks on a tree are the remarks at
those of its sites that are reached: the ones with no provided item above them.

Items that are read from a document never have null for the parameters of a service, because null
stands for none. `NullFree` says this of a whole tree; the remarks on parameters depend on it.
-/

import Mathlib
import MenuPlan.Proofs.Item.Members
import MenuPlan.Proofs.Item.Mirror

namespace MenuPlan

instance (text : Option String) : Decidable (IsBlank text) :=
  inferInstanceAs (Decidable (_ ∨ _))

/-- There are parameters that no method takes. -/
def Service.HasIdleParameters (service : Service) : Prop :=
  IsBlank service.method ∧ service.parameters ≠ none ∧ service.parameters ≠ some .null

instance (service : Service) : Decidable service.HasIdleParameters :=
  inferInstanceAs (Decidable (_ ∧ _ ∧ _))

namespace Item

/-- A place in the tree of an item. -/
structure Site where
  location : String
  /-- The items above the place, innermost first. -/
  above : List Item
  item : Item

mutual

/-- The places of an item and of all items below it, an item before its children. -/
def sites (location : String) (above : List Item) : Item → List Site
  | ⟨options, route, service, expression, children, attributes⟩ =>
      ⟨location, above, ⟨options, route, service, expression, children, attributes⟩⟩ ::
        childSites location (⟨options, route, service, expression, children, attributes⟩ :: above)
          children

/-- The places below an item. -/
def childSites (location : String) (above : List Item) : List (String × Item) → List Site
  | [] => []
  | (name, child) :: rest =>
      sites (location ++ ".children." ++ name) above child ++ childSites location above rest

end

/-- A service or an expression provides the item. -/
def IsProvided (item : Item) : Prop :=
  item.service ≠ none ∨ ¬ IsBlank item.expression

instance (item : Item) : Decidable item.IsProvided :=
  inferInstanceAs (Decidable (_ ∨ _))

/-- No item above the place is provided from outside. -/
def Site.IsReached (site : Site) : Prop :=
  ∀ item ∈ site.above, ¬ item.IsProvided

instance (site : Site) : Decidable site.IsReached :=
  inferInstanceAs (Decidable (∀ _ ∈ _, _))

/-- What is said when several keys could drive the construction of an item: which of service,
expression and children are there, which of them wins, and which are ignored. -/
def conflict (service expression children : Bool) : Option String :=
  match service, expression, children with
  | true, true, true => some ("item sets service, expression, children; " ++
      "'service' takes precedence and 'expression', 'children' ignored")
  | true, true, false =>
      some "item sets service, expression; 'service' takes precedence and 'expression' ignored"
  | true, false, true =>
      some "item sets service, children; 'service' takes precedence and 'children' ignored"
  | false, true, true =>
      some "item sets expression, children; 'expression' takes precedence and 'children' ignored"
  | true, false, false | false, true, false | false, false, true | false, false, false => none

/-- The remark on idle parameters. -/
def idleParameters (service : Service) : String :=
  "service '" ++ service.id ++ "' has parameters but no method; parameters are ignored"

/-- The remarks at one place: first on keys in conflict, then on the parameters of the service. -/
def remarks (location : String) (item : Item) : List Warning :=
  (conflict (item.service ≠ none) (¬ IsBlank item.expression) (item.children ≠ [])).toList.map
      (fun text => ⟨"W2030", text, some location⟩) ++
    (item.service.toList.filter fun service => service.HasIdleParameters).map
      fun service => ⟨"W2031", idleParameters service, some location⟩

/-- The remarks at the places of a tree that are reached, in pre-order. -/
def treeRemarks (location : String) (item : Item) : List Warning :=
  ((item.sites location []).filter fun site => site.IsReached).flatMap
    fun site => site.item.remarks site.location

/-- No service in the tree has null for its parameters. -/
def NullFree (item : Item) : Prop :=
  item.Everywhere fun item =>
    ∀ service, item.service = some service → service.parameters ≠ some .null

/-- The keys in conflict are those that could drive the construction. -/
theorem precedenceWarnings_eq (location : String) (item : Item) :
    precedenceWarnings location item =
      (conflict (item.service ≠ none) (¬ IsBlank item.expression) (item.children ≠ [])).toList.map
        fun text => ⟨"W2030", text, some location⟩ := by
  obtain ⟨options, route, service, expression, children, attributes⟩ := item
  have isSource : (expression.filter (· ≠ "")).isSome = decide (¬ IsBlank expression) := by
    cases source : expression.filter (· ≠ "") with
    | none =>
        have blank := filter_nonEmpty_eq_none_iff.mp source
        simp [blank]
    | some text =>
        have filled : ¬ IsBlank expression := by
          rw [← filter_nonEmpty_eq_none_iff, source]
          nofun
        simp [filled]
  simp only [precedenceWarnings, drivingKeys, Item.source, isSource]
  by_cases filled : IsBlank expression
  · cases service with
    | none => cases children <;> simp [filled, conflict]
    | some service =>
        cases children with
        | nil => simp [filled, conflict]
        | cons child rest => simp [filled, conflict]; rfl
  · cases service with
    | none =>
        cases children with
        | nil => simp [filled, conflict]
        | cons child rest => simp [filled, conflict]; rfl
    | some service =>
        cases children with
        | nil => simp [filled, conflict]; rfl
        | cons child rest => simp [filled, conflict]; rfl

/-- A service without null for its parameters is remarked upon if they are idle. -/
theorem serviceWarnings_eq (location : String) {service : Service}
    (noNull : service.parameters ≠ some .null) :
    service.warnings location = ([service].filter fun service => service.HasIdleParameters).map
      fun service => ⟨"W2031", idleParameters service, some location⟩ := by
  have noMethod : service.factoryMethod.isNone = true ↔ IsBlank service.method := by
    rw [Option.isNone_iff_eq_none, Service.factoryMethod, filter_nonEmpty_eq_none_iff]
  have isIdle : (service.factoryMethod.isNone ∧ service.parameters.isSome) ↔
      service.HasIdleParameters := by
    rw [noMethod, Option.isSome_iff_ne_none, Service.HasIdleParameters]
    exact and_congr_right fun _ => (and_iff_left noNull).symm
  by_cases idle : service.HasIdleParameters
  · rw [Service.warnings, if_pos (isIdle.mpr idle), List.filter_cons_of_pos (by simpa using idle)]
    rfl
  · rw [Service.warnings, if_neg fun found => idle (isIdle.mp found),
      List.filter_cons_of_neg (by simpa using idle)]
    rfl

theorem warnings_of_service (location : String) {item : Item} {service : Service}
    (provided : item.service = some service) :
    warnings location item = precedenceWarnings location item ++ service.warnings location := by
  cases item
  cases provided
  rw [warnings]

theorem warnings_of_source (location : String) {item : Item} (noService : item.service = none)
    (filled : ¬ IsBlank item.expression) :
    warnings location item = precedenceWarnings location item := by
  have isSource : (item.expression.filter (· ≠ "")).isSome = true := by
    rwa [Option.isSome_iff_ne_none, ne_eq, filter_nonEmpty_eq_none_iff]
  cases item
  cases noService
  rw [warnings]
  simp only [isSource, if_true, List.append_nil]

theorem warnings_of_own (location : String) {item : Item} (noService : item.service = none)
    (blank : IsBlank item.expression) :
    warnings location item =
      precedenceWarnings location item ++ childWarnings location item.children := by
  have noSource : item.expression.filter (· ≠ "") = none := filter_nonEmpty_eq_none_iff.mpr blank
  cases item
  cases noService
  rw [warnings]
  simp only [noSource, Option.isSome_none, Bool.false_eq_true, if_false]

/-- The items below are remarked upon one by one. -/
theorem childWarnings_eq_flatMap (location : String) (children : List (String × Item)) :
    childWarnings location children =
      children.flatMap fun entry => warnings (location ++ ".children." ++ entry.1) entry.2 := by
  induction children with
  | nil => rfl
  | cons entry rest ih => rw [childWarnings, ih, List.flatMap_cons]

/-- The places of an item begin with the item itself. -/
theorem sites_eq_cons (location : String) (above : List Item) (item : Item) :
    sites location above item =
      ⟨location, above, item⟩ :: childSites location (item :: above) item.children := by
  cases item
  rw [sites]

/-- The places below are those of each child. -/
theorem childSites_eq_flatMap (location : String) (above : List Item)
    (children : List (String × Item)) :
    childSites location above children =
      children.flatMap fun entry => sites (location ++ ".children." ++ entry.1) above entry.2 := by
  induction children with
  | nil => rfl
  | cons entry rest ih => rw [childSites, ih, List.flatMap_cons]

/-- Every place has the items above that the traversal came with. -/
theorem above_subset_of_mem_sites {location : String} {above : List Item} {item : Item}
    {site : Site} (member : site ∈ sites location above item) : above ⊆ site.above := by
  induction item using treeInduction generalizing location above with
  | step item ih =>
    rw [sites_eq_cons, childSites_eq_flatMap] at member
    rcases List.mem_cons.mp member with rfl | below
    · exact List.Subset.refl _
    · obtain ⟨entry, isChild, inChild⟩ := List.mem_flatMap.mp below
      exact fun other isAbove => ih entry isChild inChild (List.mem_cons_of_mem _ isAbove)

/-- Below a provided item no place is reached. -/
theorem filter_isReached_of_provided {provided : Item} (isProvided : provided.IsProvided)
    {above : List Item} (member : provided ∈ above) (location : String)
    (children : List (String × Item)) :
    ((childSites location above children).filter fun site => site.IsReached) = [] := by
  rw [childSites_eq_flatMap, List.filter_eq_nil_iff]
  intro site below
  obtain ⟨entry, -, inChild⟩ := List.mem_flatMap.mp below
  rw [decide_eq_true_iff]
  intro reached
  exact reached provided (above_subset_of_mem_sites inChild member) isProvided

/-- The remarks on a tree are those at the reached places. The items above are of no account as long
as none of them is provided. -/
theorem warnings_eq_flatMap_sites {item : Item} (nullFree : item.NullFree) {above : List Item}
    (reached : ∀ other ∈ above, ¬ other.IsProvided) (location : String) :
    warnings location item =
      ((sites location above item).filter fun site => site.IsReached).flatMap
        fun site => site.item.remarks site.location := by
  induction item using treeInduction generalizing location above with
  | step item ih =>
    obtain ⟨own, below⟩ := nullFree
    have here : decide (Site.IsReached ⟨location, above, item⟩) = true := decide_eq_true reached
    rw [sites_eq_cons, List.filter_cons, if_pos here, List.flatMap_cons, remarks,
      ← precedenceWarnings_eq]
    cases provided : item.service with
    | some service =>
        have isProvided : item.IsProvided := Or.inl (by rw [provided]; nofun)
        rw [filter_isReached_of_provided isProvided List.mem_cons_self,
          warnings_of_service location provided, serviceWarnings_eq location (own service provided)]
        exact (List.append_nil _).symm
    | none =>
        by_cases blank : IsBlank item.expression
        · have notProvided : ¬ item.IsProvided := by
            rintro (hasService | filled)
            · exact hasService provided
            · exact filled blank
          have reachedBelow : ∀ other ∈ item :: above, ¬ other.IsProvided :=
            List.forall_mem_cons.mpr ⟨notProvided, reached⟩
          rw [warnings_of_own location provided blank, childWarnings_eq_flatMap,
            childSites_eq_flatMap, List.filter_flatMap, List.flatMap_assoc]
          simp only [Option.toList_none, List.filter_nil, List.map_nil, List.append_nil]
          congr 1
          apply List.flatMap_congr
          intro entry member
          exact ih entry member (below entry member) reachedBelow _
        · rw [filter_isReached_of_provided (Or.inr blank) List.mem_cons_self,
            warnings_of_source location provided blank]
          simp only [Option.toList_none, List.filter_nil, List.map_nil, List.flatMap_nil,
            List.append_nil]

end Item

/-- A service is read without null for its parameters. -/
theorem Service.parameters_ne_null_of_read {value : Data} {service : Service}
    (isRead : read value = .ok service) : service.parameters ≠ some .null := by
  obtain ⟨members, -, rfl⟩ := map_eq_ok_iff.mp isRead
  intro isNull
  have kept := (Option.filter_eq_some_iff.mp isNull).2
  simp at kept

namespace Item

/-- What is read has no null for the parameters of a service, at any depth. -/
theorem NullFree.of_read {value : Data} {item : Item} (isRead : read value = .ok item) :
    item.NullFree := by
  refine everywhere_of_read (Q := fun _ => True) ?_ (fun _ _ _ _ _ _ => trivial) trivial isRead
  intro members item _ taken service isSet
  rcases taken.service with ⟨-, none⟩ | ⟨value, -, isService⟩
  · cases none.symm.trans isSet
  · rw [isSet] at isService
    exact Service.parameters_ne_null_of_read (readOptional_eq_some isService)

/-- An item that data describes has no null for the parameters of a service. -/
theorem NullFree.of_normalize {strict : Bool} {location : String} {raw : Data} {item : Item}
    (isItem : normalize strict location raw = .ok item) : item.NullFree :=
  NullFree.of_read (normalize_eq_ok_iff.mp isItem).2

end Item

/-- So has the item of a breadcrumb. -/
theorem Breadcrumb.nullFree_of_normalize {strict : Bool} {location : String} {raw : Data}
    {breadcrumb : Breadcrumb} (isBreadcrumb : normalize strict location raw = .ok breadcrumb) :
    breadcrumb.item.NullFree :=
  Item.NullFree.of_normalize (normalize_eq_ok_iff.mp isBreadcrumb).2.1

end MenuPlan

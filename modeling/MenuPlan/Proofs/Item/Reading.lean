/-
# Data that describes an item is read

An item is checked against the grammar first and read as a record afterwards, from its long form.
The two descriptions agree: what the grammar accepts, at any depth and in either mode, is read. So
an item is refused by the grammar or not at all, and the only error is one of validation.

The record is read member by member. `exists_readMembers_cons` is the step, one case for each rule
of the grammar: a member that obeys a rule is taken in, whatever has been read before it.
-/

import MenuPlan.Item.Normal
import MenuPlan.Proofs.Item.Acceptance
import MenuPlan.Proofs.Steps

namespace MenuPlan

/-- An object is a record if its members have the types of their fields and the one field that is
required is among them. -/
theorem RecordType.read_object_eq_ok (type : RecordType) {required : String}
    {IsMember : String → Data → Prop} {members : Fields Data}
    (typed : ∀ name value, IsMember name value → ∀ field, type.field? name = some field →
      field.type.check value = .ok ())
    (requires : ∀ field ∈ type.fields, field.presence = .required → field.name = required)
    (isNamed : required ∈ Fields.names members)
    (each : ∀ entry ∈ members, IsMember entry.1 entry.2) :
    type.read (.object members) = .ok members := by
  have checked : type.checkMembers members = .ok () := by
    apply forM_eq_ok_iff.mpr
    intro entry member
    dsimp only
    cases found : type.field? entry.1 with
    | none => rfl
    | some field => exact typed entry.1 entry.2 (each entry member) field found
  have complete : type.checkPresence members = .ok () := by
    apply forM_eq_ok_iff.mpr
    intro field member
    apply if_neg
    rintro ⟨isRequired, isMissing⟩
    rw [requires field member isRequired, Option.isNone_iff_eq_none,
      Fields.get?_eq_none_iff] at isMissing
    exact isMissing isNamed
  rw [read, checked, ok_bind, complete]
  rfl

/-- A name or record is read if names are members of records and records are read. -/
theorem exists_readOptional {α : Type} {read : Data → Except Mismatch α} {required : String}
    {IsMember : String → Data → Prop} {value : Data}
    (named : ∀ text, text ≠ "" → IsMember required (.string text))
    (readsRecord : ∀ members : Fields Data, required ∈ Fields.names members →
      (∀ entry ∈ members, IsMember entry.1 entry.2) → ∃ record, read (.object members) = .ok record)
    (accepted : IsNameOrRecord required IsMember value) :
    ∃ record, readOptional read (Item.expandName required value) = .ok record := by
  have readsSome : ∀ members : Fields Data, required ∈ Fields.names members →
      (∀ entry ∈ members, IsMember entry.1 entry.2) →
      ∃ record, readOptional read (.object members) = .ok record := by
    intro members isNamed each
    obtain ⟨record, isRead⟩ := readsRecord members isNamed each
    rw [readOptional, isRead]
    · exact ⟨some record, rfl⟩
    · nofun
  cases accepted with
  | null => exact ⟨none, rfl⟩
  | @name text nonEmpty =>
      apply readsSome [(required, .string text)] List.mem_cons_self
      intro entry member
      rw [List.mem_singleton.mp member]
      exact named text nonEmpty
  | record isNamed each => exact readsSome _ isNamed each

/-- A route in the grammar is read. -/
theorem Route.exists_read {value : Data} (isRoute : IsNameOrRecord "name" IsMember value) :
    ∃ route, readOptional read (Item.expandName "name" value) = .ok route := by
  apply exists_readOptional (fun text nonEmpty => IsMember.name nonEmpty) _ isRoute
  intro members isNamed each
  have typed : ∀ name value, IsMember name value → ∀ field, recordType.field? name = some field →
      field.type.check value = .ok () := by
    intro name value isMember field isField
    cases isMember <;> cases isField <;> rfl
  rw [read, recordType.read_object_eq_ok typed (by decide) isNamed each]
  exact ⟨_, rfl⟩

/-- A service in the grammar is read. -/
theorem Service.exists_read {value : Data} (isService : IsNameOrRecord "id" IsMember value) :
    ∃ service, readOptional read (Item.expandName "id" value) = .ok service := by
  apply exists_readOptional (fun text nonEmpty => IsMember.id nonEmpty) _ isService
  intro members isNamed each
  have typed : ∀ name value, IsMember name value → ∀ field, recordType.field? name = some field →
      field.type.check value = .ok () := by
    intro name value isMember field isField
    cases isMember <;> cases isField <;> rfl
  rw [read, recordType.read_object_eq_ok typed (by decide) isNamed each]
  exact ⟨_, rfl⟩

namespace Item

variable {strict : Bool}

/-- The long form of the value of a key. -/
def expandValue (name : String) (value : Data) : Data :=
  if name = "route" then expandName "name" value
  else if name = "service" then expandName "id" value
  else if name = "children" then expandChildren value
  else value

/-- Members get their long forms one by one. -/
theorem expandMembers_eq_map (members : List (String × Data)) :
    expandMembers members = members.map fun entry => (entry.1, expandValue entry.1 entry.2) := by
  induction members with
  | nil => rfl
  | cons entry rest ih =>
      rw [expandMembers, ih, List.map_cons, expandValue]
      split_ifs <;> rfl

/-- Items get their long forms one by one. -/
theorem expandEntries_eq_map (entries : List (String × Data)) :
    expandEntries entries = entries.map fun entry => (entry.1, expand entry.2) := by
  induction entries with
  | nil => rfl
  | cons entry rest ih => rw [expandEntries, ih, List.map_cons]

/-- A key that is none of the item's own becomes an attribute. -/
theorem readMembers_attribute (item : Item) {name : String} (isAttribute : name ∉ ownKeys)
    (value : Data) (rest : List (String × Data)) :
    readMembers item ((name, value) :: rest) =
      readMembers { item with attributes := item.attributes ++ [(name, value)] } rest := by
  simp only [ownKeys, List.mem_cons, List.not_mem_nil, or_false, not_or] at isAttribute
  obtain ⟨notOptions, notRoute, notService, notExpression, notChildren⟩ := isAttribute
  rw [readMembers] <;> simp_all

/-- The items below are read if each of them is. -/
theorem exists_readChildren {entries : List (String × Data)}
    (each : ∀ entry ∈ entries, ∃ item, read entry.2 = .ok item) :
    ∃ children, readChildren entries = .ok children := by
  induction entries with
  | nil => exact ⟨[], rfl⟩
  | cons entry rest ih =>
      obtain ⟨item, isItem⟩ := each entry List.mem_cons_self
      obtain ⟨children, isRest⟩ := ih fun other member => each other (List.mem_cons_of_mem _ member)
      rw [readChildren, isItem, ok_bind, isRest]
      exact ⟨_, rfl⟩

/-- A member in the grammar is taken in, whatever has been read before it: reading goes on with the
rest. This needs that the items below it are read. -/
theorem exists_readMembers_cons {name : String} {value : Data}
    (isMember : IsMember strict name value)
    (below : ∀ entries, name = "children" → value = .object entries →
      ∀ entry ∈ entries, ∃ item, read (expand entry.2) = .ok item)
    (item : Item) (rest : List (String × Data)) :
    ∃ next, readMembers item ((name, expandValue name value) :: rest) = readMembers next rest := by
  have asAttribute : name ∉ ownKeys →
      ∃ next, readMembers item ((name, expandValue name value) :: rest) = readMembers next rest :=
    fun isAttribute => ⟨_, readMembers_attribute item isAttribute _ rest⟩
  have ownTexts : ∀ key ∈ textKeys, key ≠ "expression" → key ∉ ownKeys := by decide
  have ownMaps : ∀ key ∈ mapKeys, key ≠ "options" → key ∉ ownKeys := by decide
  have ownFlags : ∀ key ∈ flagKeys, key ∉ ownKeys := by decide
  have ownKnown : ∀ key ∈ ownKeys, key ∈ knownKeys := by decide
  cases isMember with
  | text isText text =>
      by_cases isExpression : name = "expression"
      · subst isExpression
        exact ⟨{ item with expression := some text }, rfl⟩
      · exact asAttribute (ownTexts name isText isExpression)
  | noText isText =>
      by_cases isExpression : name = "expression"
      · subst isExpression
        exact ⟨{ item with expression := none }, rfl⟩
      · exact asAttribute (ownTexts name isText isExpression)
  | map isMap members =>
      by_cases isOptions : name = "options"
      · subst isOptions
        exact ⟨{ item with options := members }, rfl⟩
      · exact asAttribute (ownMaps name isMap isOptions)
  | flag isFlag flag => exact asAttribute (ownFlags name isFlag)
  | current flag => exact asAttribute (by decide)
  | noCurrent => exact asAttribute (by decide)
  | route isRoute =>
      obtain ⟨route, isRead⟩ := Route.exists_read isRoute
      have long : expandValue "route" value = expandName "name" value := rfl
      rw [long, readMembers, isRead, ok_bind]
      exact ⟨_, rfl⟩
  | service isService =>
      obtain ⟨service, isRead⟩ := Service.exists_read isService
      have long : expandValue "service" value = expandName "id" value := rfl
      rw [long, readMembers, isRead, ok_bind]
      exact ⟨_, rfl⟩
  | @children entries each =>
      have long : expandValue "children" (.object entries) =
          .object (entries.map fun entry => (entry.1, expand entry.2)) := by
        rw [← expandEntries_eq_map]
        rfl
      have eachRead : ∀ entry ∈ entries.map fun entry => (entry.1, expand entry.2),
          ∃ item, read entry.2 = .ok item := by
        intro entry member
        obtain ⟨raw, isRaw, rfl⟩ := List.mem_map.mp member
        exact below entries rfl rfl raw isRaw
      obtain ⟨children, isRead⟩ := exists_readChildren eachRead
      rw [long, readMembers, isRead, ok_bind]
      exact ⟨_, rfl⟩
  | noChildren => exact ⟨{ item with children := [] }, rfl⟩
  | other lenient unknown =>
      apply asAttribute
      intro isOwn
      exact unknown (ownKnown name isOwn)

/-- Members in the grammar are read one after the other. -/
theorem exists_readMembers {members : List (String × Data)}
    (each : ∀ entry ∈ members, IsMember strict entry.1 entry.2)
    (below : ∀ entries, ("children", .object entries) ∈ members →
      ∀ entry ∈ entries, ∃ item, read (expand entry.2) = .ok item) (item : Item) :
    ∃ done, readMembers item (expandMembers members) = .ok done := by
  rw [expandMembers_eq_map]
  induction members generalizing item with
  | nil => exact ⟨item, rfl⟩
  | cons member rest ih =>
      obtain ⟨name, value⟩ := member
      have belowFirst : ∀ entries, name = "children" → value = .object entries →
          ∀ entry ∈ entries, ∃ item, read (expand entry.2) = .ok item := by
        rintro entries rfl rfl
        exact below entries List.mem_cons_self
      obtain ⟨next, isStep⟩ := exists_readMembers_cons (each _ List.mem_cons_self) belowFirst item
        (rest.map fun entry => (entry.1, expandValue entry.1 entry.2))
      rw [List.map_cons, isStep]
      apply ih
      · intro entry member
        exact each entry (List.mem_cons_of_mem _ member)
      · intro entries member
        exact below entries (List.mem_cons_of_mem _ member)

/-- The items below an item are in the grammar too. -/
theorem IsMember.isItem_of_mem_children {name : String} {value : Data}
    {entries : List (String × Data)} (isMember : IsMember strict name value)
    (isChildren : name = "children") (isObject : value = .object entries) :
    ∀ entry ∈ entries, IsItem strict entry.2 := by
  cases isMember with
  | children each =>
      cases isObject
      exact each
  | map isMap =>
      subst isChildren
      exact absurd isMap (by decide)
  | other _ unknown =>
      subst isChildren
      exact absurd (by decide) unknown
  | route => exact absurd isChildren (by decide)
  | service => exact absurd isChildren (by decide)
  | text | noText | flag | current | noCurrent | noChildren => cases isObject

/-- The long form of data in the grammar is read. -/
theorem exists_read_expand {raw : Data} (isItem : IsItem strict raw) :
    ∃ item, read (expand raw) = .ok item := by
  induction raw using Data.itemInduction with
  | step raw ih =>
    cases isItem with
    | null => exact ⟨{}, rfl⟩
    | @object members each =>
        rw [expand, read]
        apply exists_readMembers each
        intro entries inMembers entry inEntries
        have isItem := (each _ inMembers).isItem_of_mem_children rfl rfl entry inEntries
        exact ih members entries rfl inMembers entry inEntries isItem

/-- Data passes the check of a grammar that finds no fault with it. -/
theorem check_eq_ok_iff_fault? {grammar : Grammar} {location : String} {raw : Data} :
    check grammar location raw = .ok () ↔ grammar.fault? raw = none := by
  rw [check]
  cases grammar.fault? raw with
  | none => exact iff_of_true rfl rfl
  | some fault => exact iff_of_false nofun nofun

/-- Nothing is wrong with data exactly if it is in the grammar. -/
theorem check_eq_ok_iff {location : String} {raw : Data} :
    check (.item strict) location raw = .ok () ↔ IsItem strict raw := by
  rw [check_eq_ok_iff_fault?, ← itemFault?_eq_none_iff]
  rfl

/-- A fault is reported as invalid at the location given. -/
theorem check_eq_error {grammar : Grammar} {location : String} {raw : Data} {error : CompileError}
    (failed : check grammar location raw = .error error) :
    ∃ detail, error = .validation location detail := by
  rw [check] at failed
  split at failed
  · cases failed
    exact ⟨_, rfl⟩
  · cases failed

/-- A mismatch is reported as invalid at the location given. -/
theorem ofExpanded_eq_error {location : String} {expanded : Data} {error : CompileError}
    (failed : ofExpanded location expanded = .error error) :
    ∃ detail, error = .validation location detail := by
  rw [ofExpanded] at failed
  split at failed
  · cases failed
  · cases failed
    exact ⟨_, rfl⟩

/-- Whatever is wrong with data is reported as invalid at the location given. -/
theorem normalize_eq_error {location : String} {raw : Data} {error : CompileError}
    (failed : normalize strict location raw = .error error) :
    ∃ detail, error = .validation location detail := by
  rcases bind_eq_error_iff.mp failed with unchecked | ⟨_, -, unread⟩
  · exact check_eq_error unchecked
  · exact ofExpanded_eq_error unread

end Item

/-- Whatever is wrong with a breadcrumb is reported as invalid at the location given. -/
theorem Breadcrumb.normalize_eq_error {strict : Bool} {location : String} {raw : Data}
    {error : CompileError} (failed : normalize strict location raw = .error error) :
    ∃ detail, error = .validation location detail := by
  rcases bind_eq_error_iff.mp failed with unchecked | ⟨_, -, later⟩
  · exact Item.check_eq_error unchecked
  · rcases bind_eq_error_iff.mp later with unread | ⟨_, -, returned⟩
    · exact Item.ofExpanded_eq_error unread
    · cases returned

namespace Item

/-- Data in short forms, with a route and a null below a service that has no method. -/
def shortForms : Data :=
  .object [
    ("service", .object [("id", .string "app.menu"), ("method", .null)]),
    ("children", .object [
      ("home", .object [("route", .string "home"), ("current", .null)]),
      ("about", .null)])]

/-- Data with an unknown key on an item below. -/
def strayKey : Data :=
  .object [("children", .object [("about", .object [("icon", .string "house")])])]

/-- Data describes an item, in a strict grammar or a lenient one, exactly if it is in the grammar of
items by its rules. The reading of the long form has no part in this, since it succeeds whenever the
check finds nothing wrong; and whatever is wrong is reported as invalid at the location given. -/
theorem normalize_succeeds_iff_isItem (strict : Bool) (location : String) (raw : Data) :
    ((∃ item, normalize strict location raw = .ok item) ↔ IsItem strict raw) ∧
      (check (.item strict) location raw = .ok () → ∃ item, read (expand raw) = .ok item) ∧
      ∀ error, normalize strict location raw = .error error →
        ∃ detail, error = .validation location detail := by
  have reads : check (.item strict) location raw = .ok () →
      ∃ item, read (expand raw) = .ok item :=
    fun passed => exists_read_expand (check_eq_ok_iff.mp passed)
  refine ⟨⟨?_, ?_⟩, reads, ?_⟩
  · rintro ⟨item, succeeded⟩
    rw [normalize, bind_eq_ok_iff] at succeeded
    obtain ⟨_, passed, -⟩ := succeeded
    exact check_eq_ok_iff.mp passed
  · intro isItem
    have passed : check (.item strict) location raw = .ok () := check_eq_ok_iff.mpr isItem
    obtain ⟨item, isRead⟩ := reads passed
    refine ⟨item, ?_⟩
    rw [normalize, passed, ok_bind, ofExpanded, isRead]
  · intro error failed
    exact normalize_eq_error failed

/-- Short forms are accepted in a strict grammar, and an unknown key below is not. -/
theorem shortForms_succeeds_iff_isItem :
    IsItem true shortForms ∧ (∃ item, normalize true "x" shortForms = .ok item) ∧
      ¬ IsItem true strayKey := by
  have accepted := normalize_succeeds_iff_isItem true "x" shortForms
  have refused := normalize_succeeds_iff_isItem true "x" strayKey
  have passed : check (.item true) "x" shortForms = .ok () := by cbv
  have isItem : IsItem true shortForms := check_eq_ok_iff.mp passed
  refine ⟨isItem, accepted.1.mpr isItem, ?_⟩
  intro isStrayItem
  obtain ⟨item, succeeded⟩ := refused.1.mpr isStrayItem
  have fails : (normalize true "x" strayKey).isOk = false := by decide +kernel
  rw [succeeded] at fails
  cases fails

end Item

end MenuPlan

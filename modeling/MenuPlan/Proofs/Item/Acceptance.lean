/-
# What the grammar of items accepts

`IsItem` gives the grammar of items by rules, one for every kind of key: texts, maps, flags, the
route and the service with their records, and the items below. The shapes, the faults and the order
in which faults are picked do not occur in it. A value has no fault exactly if it is an item by
these rules, in a strict grammar as in a lenient one.

The way from a fault to the rules has two parts. For any shapes of keys, an object has no fault
exactly if none of its members has one, because a fault that was found is also reported. And for the
keys of items, a member has no fault exactly if there is a rule for it.
-/

import Mathlib
import MenuPlan.Item.Grammar

namespace MenuPlan

/-- Null, a non-empty name, or a record that holds a name under `required` and whose members are all
of one sort. -/
inductive IsNameOrRecord (required : String) (IsMember : String → Data → Prop) : Data → Prop where
  | null : IsNameOrRecord required IsMember .null
  | name {text : String} (nonEmpty : text ≠ "") : IsNameOrRecord required IsMember (.string text)
  | record {entries : Fields Data} (isNamed : required ∈ Fields.names entries)
      (each : ∀ entry ∈ entries, IsMember entry.1 entry.2) :
      IsNameOrRecord required IsMember (.object entries)

/-- A member of a route. -/
inductive Route.IsMember : String → Data → Prop where
  | name {text : String} (nonEmpty : text ≠ "") : IsMember "name" (.string text)
  | parameters (members : Fields Data) : IsMember "parameters" (.object members)
  | absoluteFlag (flag : Bool) : IsMember "absolute" (.bool flag)
  | absoluteText (text : String) : IsMember "absolute" (.string text)

/-- A member of a service. -/
inductive Service.IsMember : String → Data → Prop where
  | id {text : String} (nonEmpty : text ≠ "") : IsMember "id" (.string text)
  | method (text : String) : IsMember "method" (.string text)
  | noMethod : IsMember "method" .null
  | parameters (value : Data) : IsMember "parameters" value

namespace Item

/-- The keys for a string or null. -/
def textKeys : List String := ["label", "uri", "translationDomain", "expression"]

/-- The keys for an object. -/
def mapKeys : List String :=
  ["attributes", "linkAttributes", "childrenAttributes", "labelAttributes", "extras", "options"]

/-- The keys for a boolean. -/
def flagKeys : List String := ["display", "displayChildren"]

/-- All keys that an item may have in a strict grammar. -/
def knownKeys : List String :=
  textKeys ++ mapKeys ++ flagKeys ++ ["current", "route", "service", "children"]

mutual

/-- Data that describes an item. -/
inductive IsItem (strict : Bool) : Data → Prop where
  | null : IsItem strict .null
  | object {members : Fields Data} (each : ∀ entry ∈ members, IsMember strict entry.1 entry.2) :
      IsItem strict (.object members)

/-- A member of the data that describes an item. -/
inductive IsMember (strict : Bool) : String → Data → Prop where
  | text {name : String} (isText : name ∈ textKeys) (text : String) :
      IsMember strict name (.string text)
  | noText {name : String} (isText : name ∈ textKeys) : IsMember strict name .null
  | map {name : String} (isMap : name ∈ mapKeys) (members : Fields Data) :
      IsMember strict name (.object members)
  | flag {name : String} (isFlag : name ∈ flagKeys) (flag : Bool) :
      IsMember strict name (.bool flag)
  | current (flag : Bool) : IsMember strict "current" (.bool flag)
  | noCurrent : IsMember strict "current" .null
  | route {value : Data} (isRoute : IsNameOrRecord "name" Route.IsMember value) :
      IsMember strict "route" value
  | service {value : Data} (isService : IsNameOrRecord "id" Service.IsMember value) :
      IsMember strict "service" value
  | children {entries : Fields Data} (each : ∀ entry ∈ entries, IsItem strict entry.2) :
      IsMember strict "children" (.object entries)
  | noChildren : IsMember strict "children" .null
  | other {name : String} (lenient : strict = false) (unknown : name ∉ knownKeys) (value : Data) :
      IsMember strict name value

end

end Item

/-- What follows for data from the data of the items below it holds of all data. -/
@[elab_as_elim]
theorem Data.itemInduction {motive : Data → Prop}
    (step : ∀ value : Data, (∀ members entries, value = .object members →
      ("children", .object entries) ∈ members → ∀ entry ∈ entries, motive entry.2) → motive value)
    (value : Data) : motive value := by
  apply step
  rintro members entries rfl isMember entry isEntry
  have smaller : sizeOf entry.2 < sizeOf (Data.object members) := by
    have below := List.sizeOf_lt_of_mem isMember
    have inEntries := List.sizeOf_lt_of_mem isEntry
    obtain ⟨name, child⟩ := entry
    simp only [Data.object.sizeOf_spec, Prod.mk.sizeOf_spec] at below inEntries ⊢
    omega
  exact itemInduction step entry.2
termination_by sizeOf value

namespace Fields

variable {α : Type} {fields : Fields α} {name : String}

/-- A name is looked up with success exactly if it is one of the names. -/
theorem lookup_isSome_iff : (fields.lookup name).isSome ↔ name ∈ names fields := by
  rw [List.lookup_isSome_iff, names, List.mem_map]
  simp only [beq_iff_eq]
  exact exists_congr fun entry => and_congr_right fun _ => eq_comm

/-- What is looked up is an entry. -/
theorem mem_of_lookup_eq_some {value : α} (found : fields.lookup name = some value) :
    (name, value) ∈ fields := by
  obtain ⟨before, after, rfl, -⟩ := List.lookup_eq_some_iff.mp found
  exact List.mem_append_right _ List.mem_cons_self

end Fields

namespace Shape

/-- What is found under a name in a list of pairs. -/
theorem lookup_cons_eq_some_iff {α : Type} {key name : String} {first found : α}
    {rest : List (String × α)} :
    ((key, first) :: rest).lookup name = some found ↔
      (name = key ∧ first = found) ∨ (name ≠ key ∧ rest.lookup name = some found) := by
  by_cases same : name = key
  · simp [List.lookup, same]
  · have differs : (name == key) = false := by simpa using same
    simp [List.lookup, differs, same]

/-- A record accepts exactly the members that have a shape and fit it. -/
theorem acceptsMembers_iff {members : List (String × Shape)} {entries : Fields Data} :
    acceptsMembers members entries = true ↔
      ∀ entry ∈ entries, ∃ shape, members.lookup entry.1 = some shape ∧
        shape.accepts entry.2 = true := by
  induction members generalizing entries with
  | nil =>
      rw [acceptsMembers, List.isEmpty_iff]
      constructor
      · rintro rfl entry member
        cases member
      · intro each
        cases entries with
        | nil => rfl
        | cons entry rest =>
            obtain ⟨shape, found, -⟩ := each entry List.mem_cons_self
            cases found
  | cons first rest ih =>
      obtain ⟨name, shape⟩ := first
      rw [acceptsMembers, Bool.and_eq_true, List.all_eq_true, ih]
      constructor
      · rintro ⟨own, others⟩ entry member
        by_cases same : entry.1 = name
        · have fits := own entry member
          refine ⟨shape, lookup_cons_eq_some_iff.mpr (Or.inl ⟨same, rfl⟩), ?_⟩
          simpa [same] using fits
        · have remains : entry ∈ Fields.erase entries name := by
            simpa [Fields.erase, same] using member
          obtain ⟨other, found, fits⟩ := others entry remains
          exact ⟨other, lookup_cons_eq_some_iff.mpr (Or.inr ⟨same, found⟩), fits⟩
      · intro each
        constructor
        · intro entry member
          by_cases same : entry.1 = name
          · obtain ⟨found, isFound, fits⟩ := each entry member
            rcases lookup_cons_eq_some_iff.mp isFound with ⟨-, rfl⟩ | ⟨different, -⟩
            · simp [fits]
            · exact absurd same different
          · simp [same]
        · intro entry remains
          obtain ⟨member, different⟩ : entry ∈ entries ∧ entry.1 ≠ name := by
            simpa [Fields.erase] using remains
          obtain ⟨found, isFound, fits⟩ := each entry member
          rcases lookup_cons_eq_some_iff.mp isFound with ⟨same, -⟩ | ⟨-, isLater⟩
          · exact absurd same different
          · exact ⟨found, isLater, fits⟩

/-- Shapes of which none accepts a value are counted as none. -/
theorem acceptCount_eq_zero_iff {shapes : List Shape} {value : Data} :
    acceptCount shapes value = 0 ↔ ∀ shape ∈ shapes, shape.accepts value = false := by
  induction shapes with
  | nil => exact iff_of_true rfl (List.forall_mem_nil _)
  | cons shape rest ih =>
      rw [acceptCount, Nat.add_eq_zero_iff, Bool.toNat_eq_zero, List.forall_mem_cons, ih]

/-- No value fits two alternatives of a reference: they are of different kinds. -/
theorem acceptCount_alternatives_le_one (required : String) (members : List (String × Shape))
    (value : Data) : acceptCount (Grammar.alternatives required members) value ≤ 1 := by
  rw [Grammar.alternatives]
  cases value <;> simp [acceptCount, accepts, Kind.includes, Bool.toNat_le]

/-- A reference accepts null, names, and records of the members that have a shape and fit it. -/
theorem accepts_reference_iff {required : String} {members : List (String × Shape)}
    {IsMember : String → Data → Prop}
    (memberIff : ∀ name value, (∃ shape,
      ((required, nonEmptyText) :: members).lookup name = some shape ∧
        shape.accepts value = true) ↔ IsMember name value) (value : Data) :
    (Grammar.reference required members).accepts value = true ↔
      IsNameOrRecord required IsMember value := by
  rw [Grammar.reference, accepts, Grammar.alternatives]
  cases value with
  | null => simp [acceptCount, accepts, Kind.includes, IsNameOrRecord.null]
  | string text =>
      constructor
      · intro accepted
        apply IsNameOrRecord.name
        simpa [acceptCount, accepts, Kind.includes] using accepted
      · intro isName
        cases isName with
        | name nonEmpty => simp [acceptCount, accepts, Kind.includes, nonEmpty]
  | object entries =>
      have isRecord : accepts (record required ((required, nonEmptyText) :: members))
          (.object entries) = true ↔ IsNameOrRecord required IsMember (.object entries) := by
        rw [accepts, Bool.and_eq_true, Fields.get?_isSome_iff, acceptsMembers_iff]
        simp only [memberIff]
        constructor
        · rintro ⟨isNamed, each⟩
          exact IsNameOrRecord.record isNamed each
        · intro isRecord
          cases isRecord with
          | record isNamed each => exact ⟨isNamed, each⟩
      rw [← isRecord]
      simp [acceptCount, accepts, Kind.includes]
  | bool _ | number _ | array _ =>
      constructor
      · intro accepted
        simp [acceptCount, accepts, Kind.includes] at accepted
      · intro none
        cases none

end Shape

namespace Grammar

variable {strict : Bool} {keys below : List (String × Shape)} {name : String} {value : Data}

/-- A shape finds fault exactly with what it does not accept. -/
theorem shapeFault?_eq_none_iff (shape : Shape) (value : Data) :
    shapeFault? shape value = none ↔ shape.accepts value = true := by
  by_cases accepted : shape.accepts value = true
  · simp [shapeFault?.eq_def, accepted]
  · rw [shapeFault?.eq_def, if_neg accepted]
    cases shape <;> simp [accepted]

/-- What is no reference is reported to fit none of the alternatives, and this is so: no value is
refused because it fits several. -/
theorem shapeFault?_reference_eq_some_iff {required : String} {members : List (String × Shape)} :
    shapeFault? (reference required members) value = some (.noAlternative value) ↔
      ∀ shape ∈ alternatives required members, shape.accepts value = false := by
  have atMostOne := Shape.acceptCount_alternatives_le_one required members value
  rw [← Shape.acceptCount_eq_zero_iff, shapeFault?.eq_def, reference, Shape.accepts]
  split_ifs with isOne
  · rw [beq_iff_eq] at isOne
    exact iff_of_false nofun (by omega)
  · rw [beq_iff_eq] at isOne
    exact iff_of_true rfl (by omega)

/-- Unknown keys are no fault in a lenient grammar. -/
theorem keyFault?_none_eq_none_iff :
    keyFault? strict below name none value = none ↔ strict = false := by
  rw [keyFault?]
  cases strict with
  | false => simp
  | true => simp

/-- A known key other than `children` is judged by its shape. -/
theorem keyFault?_some_eq_none_iff {shape : Shape} (notChildren : shape ≠ .children) :
    keyFault? strict below name (some shape) value = none ↔ shape.accepts value = true := by
  rw [keyFault?]
  · exact shapeFault?_eq_none_iff shape value
  · intro items _
    exact notChildren

/-- No item below has a fault. -/
theorem childFault?_eq_none_iff {entries : List (String × Data)} :
    childFault? strict below entries = none ↔
      ∀ entry ∈ entries, itemFault? strict below below entry.2 = none := by
  induction entries with
  | nil => simp [childFault?]
  | cons entry rest ih =>
      rw [childFault?, Option.or_eq_none_iff, ih, List.forall_mem_cons]

/-- The items below are null, or an object of items without fault. -/
theorem keyFault?_children_eq_none_iff :
    keyFault? strict below name (some .children) value = none ↔
      value = .null ∨ ∃ entries, value = .object entries ∧
        ∀ entry ∈ entries, itemFault? strict below below entry.2 = none := by
  cases value with
  | object entries =>
      rw [keyFault?, childFault?_eq_none_iff]
      simp
  | null | bool _ | number _ | string _ | array _ =>
      rw [keyFault?, shapeFault?_eq_none_iff]
      · simp [Shape.accepts, Kind.includes]
      · rintro items ⟨⟩

/-- There are no faults exactly if no member has one. -/
theorem memberFaults_eq_nil_iff {members : List (String × Data)} :
    memberFaults strict keys below members = [] ↔
      ∀ entry ∈ members, keyFault? strict below entry.1 (keys.lookup entry.1) entry.2 = none := by
  induction members with
  | nil => simp [memberFaults]
  | cons entry rest ih =>
      rw [memberFaults, List.forall_mem_cons, ← ih]
      cases found : keyFault? strict below entry.1 (keys.lookup entry.1) entry.2 with
      | some fault => simp
      | none => simp

/-- A lenient grammar only finds fault with keys that it knows. -/
theorem isSome_lookup_of_mem_memberFaults {members : List (String × Data)} {fault : Fault}
    (member : (name, fault) ∈ memberFaults false keys below members) :
    (keys.lookup name).isSome := by
  induction members with
  | nil => cases member
  | cons entry rest ih =>
      rw [memberFaults] at member
      cases found : keyFault? false below entry.1 (keys.lookup entry.1) entry.2 with
      | none =>
          rw [found] at member
          exact ih member
      | some other =>
          rw [found] at member
          rcases List.mem_cons.mp member with isFirst | later
          · cases isFirst
            cases shape : keys.lookup entry.1 with
            | some shape => rfl
            | none =>
                rw [shape, keyFault?] at found
                cases found
          · exact ih later

/-- A fault that has been found is reported, if a lenient grammar knows its key. -/
theorem first_eq_none_iff {faults : List (String × Fault)}
    (known : strict = false → ∀ entry ∈ faults, (keys.lookup entry.1).isSome) :
    first strict keys faults = none ↔ faults = [] := by
  cases faults with
  | nil =>
      cases strict with
      | true => simp [first]
      | false => simp [first, List.lookup]
  | cons entry rest =>
      obtain ⟨name, fault⟩ := entry
      cases strict with
      | true => simp [first]
      | false =>
          obtain ⟨shape, isShape⟩ :=
            Option.isSome_iff_exists.mp (known rfl (name, fault) List.mem_cons_self)
          have member := Fields.mem_of_lookup_eq_some isShape
          constructor
          · intro none
            rw [first, if_neg Bool.false_ne_true, List.findSome?_eq_none_iff] at none
            have missed := none (name, shape) member
            rw [List.lookup_cons_self] at missed
            cases missed
          · intro isNil
            cases isNil

/-- An object has no fault exactly if none of its members has one. -/
theorem itemFault?_object_eq_none_iff {members : List (String × Data)} :
    itemFault? strict keys below (.object members) = none ↔
      ∀ entry ∈ members, keyFault? strict below entry.1 (keys.lookup entry.1) entry.2 = none := by
  rw [itemFault?, ← memberFaults_eq_nil_iff]
  apply first_eq_none_iff
  rintro rfl entry member
  exact isSome_lookup_of_mem_memberFaults member

end Grammar

/-! ## Faults of items -/

namespace Item

open Grammar (itemKeys)

variable {strict : Bool} {name : String} {value : Data}

/-- Every key belongs to one of the rules. -/
theorem key_cases (name : String) :
    name ∈ textKeys ∨ name ∈ mapKeys ∨ name ∈ flagKeys ∨ name = "current" ∨ name = "route" ∨
      name = "service" ∨ name = "children" ∨ name ∉ knownKeys := by
  by_cases known : name ∈ knownKeys
  · simp only [knownKeys, List.mem_append, List.mem_cons, List.not_mem_nil, or_false] at known
    tauto
  · tauto

theorem lookup_textKeys : ∀ name ∈ textKeys, itemKeys.lookup name = some Grammar.optionalText := by
  simp only [textKeys, List.forall_mem_cons]
  exact ⟨rfl, rfl, rfl, rfl, nofun⟩

theorem lookup_mapKeys : ∀ name ∈ mapKeys, itemKeys.lookup name = some Grammar.map := by
  simp only [mapKeys, List.forall_mem_cons]
  exact ⟨rfl, rfl, rfl, rfl, rfl, rfl, nofun⟩

theorem lookup_flagKeys : ∀ name ∈ flagKeys, itemKeys.lookup name = some (.kinds [.boolean]) := by
  simp only [flagKeys, List.forall_mem_cons]
  exact ⟨rfl, rfl, nofun⟩

theorem lookup_of_unknown (unknown : name ∉ knownKeys) : itemKeys.lookup name = none := by
  have all : ∀ entry ∈ itemKeys, entry.1 ∈ knownKeys := by
    simp only [itemKeys, List.forall_mem_cons]
    decide
  rw [List.lookup_eq_none_iff]
  intro entry member
  rw [bne_iff_ne]
  rintro rfl
  exact unknown (all entry member)

/-- The verdict on a member of an item. -/
def HasNoFault (strict : Bool) (name : String) (value : Data) : Prop :=
  Grammar.keyFault? strict itemKeys name (itemKeys.lookup name) value = none

/-- A key with a shape of its own is judged by the shape. -/
theorem hasNoFault_iff_accepts {shape : Shape} (isShape : itemKeys.lookup name = some shape)
    (notChildren : shape ≠ .children) :
    HasNoFault strict name value ↔ shape.accepts value = true := by
  rw [HasNoFault, isShape, Grammar.keyFault?_some_eq_none_iff notChildren]

theorem hasNoFault_text_iff (isText : name ∈ textKeys) :
    HasNoFault strict name value ↔ value = .null ∨ ∃ text, value = .string text := by
  rw [hasNoFault_iff_accepts (lookup_textKeys name isText) nofun]
  cases value <;> simp [Grammar.optionalText, Shape.accepts, Kind.includes]

theorem hasNoFault_map_iff (isMap : name ∈ mapKeys) :
    HasNoFault strict name value ↔ ∃ members, value = .object members := by
  rw [hasNoFault_iff_accepts (lookup_mapKeys name isMap) nofun]
  cases value <;> simp [Grammar.map, Shape.accepts, Kind.includes]

theorem hasNoFault_flag_iff (isFlag : name ∈ flagKeys) :
    HasNoFault strict name value ↔ ∃ flag, value = .bool flag := by
  rw [hasNoFault_iff_accepts (lookup_flagKeys name isFlag) nofun]
  cases value <;> simp [Shape.accepts, Kind.includes]

theorem hasNoFault_current_iff :
    HasNoFault strict "current" value ↔ value = .null ∨ ∃ flag, value = .bool flag := by
  have isShape : itemKeys.lookup "current" = some (.kinds [.boolean, .null]) := rfl
  rw [hasNoFault_iff_accepts isShape nofun]
  cases value <;> simp [Shape.accepts, Kind.includes]

theorem hasNoFault_route_iff :
    HasNoFault strict "route" value ↔ IsNameOrRecord "name" Route.IsMember value := by
  have isShape : itemKeys.lookup "route" = some (Grammar.reference "name"
      [("parameters", Grammar.map), ("absolute", .kinds [.boolean, .string])]) := rfl
  rw [hasNoFault_iff_accepts isShape nofun]
  apply Shape.accepts_reference_iff
  intro name value
  simp only [Shape.lookup_cons_eq_some_iff, List.lookup_nil]
  constructor
  · rintro ⟨shape, ⟨rfl, rfl⟩ | ⟨-, ⟨rfl, rfl⟩ | ⟨-, ⟨rfl, rfl⟩ | ⟨-, ⟨⟩⟩⟩⟩, accepted⟩
    · cases value with
      | string text => exact Route.IsMember.name (by simpa [Shape.accepts] using accepted)
      | _ => simp [Shape.accepts] at accepted
    · cases value with
      | object members => exact Route.IsMember.parameters members
      | _ => simp [Grammar.map, Shape.accepts, Kind.includes] at accepted
    · cases value with
      | bool flag => exact Route.IsMember.absoluteFlag flag
      | string text => exact Route.IsMember.absoluteText text
      | _ => simp [Shape.accepts, Kind.includes] at accepted
  · intro isMember
    cases isMember with
    | name nonEmpty => exact ⟨.nonEmptyText, by simp, by simp [Shape.accepts, nonEmpty]⟩
    | parameters members => exact ⟨Grammar.map, by simp, rfl⟩
    | absoluteFlag flag => exact ⟨.kinds [.boolean, .string], by simp, rfl⟩
    | absoluteText text => exact ⟨.kinds [.boolean, .string], by simp, rfl⟩

theorem hasNoFault_service_iff :
    HasNoFault strict "service" value ↔ IsNameOrRecord "id" Service.IsMember value := by
  have isShape : itemKeys.lookup "service" = some (Grammar.reference "id"
      [("method", Grammar.optionalText), ("parameters", .anything)]) := rfl
  rw [hasNoFault_iff_accepts isShape nofun]
  apply Shape.accepts_reference_iff
  intro name value
  simp only [Shape.lookup_cons_eq_some_iff, List.lookup_nil]
  constructor
  · rintro ⟨shape, ⟨rfl, rfl⟩ | ⟨-, ⟨rfl, rfl⟩ | ⟨-, ⟨rfl, rfl⟩ | ⟨-, ⟨⟩⟩⟩⟩, accepted⟩
    · cases value with
      | string text => exact Service.IsMember.id (by simpa [Shape.accepts] using accepted)
      | _ => simp [Shape.accepts] at accepted
    · cases value with
      | null => exact Service.IsMember.noMethod
      | string text => exact Service.IsMember.method text
      | _ => simp [Grammar.optionalText, Shape.accepts, Kind.includes] at accepted
    · exact Service.IsMember.parameters value
  · intro isMember
    cases isMember with
    | id nonEmpty => exact ⟨.nonEmptyText, by simp, by simp [Shape.accepts, nonEmpty]⟩
    | method text => exact ⟨Grammar.optionalText, by simp, rfl⟩
    | noMethod => exact ⟨Grammar.optionalText, by simp, rfl⟩
    | parameters value => exact ⟨.anything, by simp, rfl⟩

theorem hasNoFault_children_iff :
    HasNoFault strict "children" value ↔ value = .null ∨ ∃ entries, value = .object entries ∧
      ∀ entry ∈ entries, Grammar.itemFault? strict itemKeys itemKeys entry.2 = none :=
  Grammar.keyFault?_children_eq_none_iff

theorem hasNoFault_unknown_iff (unknown : name ∉ knownKeys) :
    HasNoFault strict name value ↔ strict = false := by
  rw [HasNoFault, lookup_of_unknown unknown, Grammar.keyFault?_none_eq_none_iff]

/-- There is a rule for a member exactly if it has no fault, if this is so for the items below. -/
theorem isMember_iff (below : ∀ entries, name = "children" → value = .object entries →
      ∀ entry ∈ entries, Grammar.itemFault? strict itemKeys itemKeys entry.2 = none ↔
        IsItem strict entry.2) :
    HasNoFault strict name value ↔ IsMember strict name value := by
  constructor
  · intro noFault
    rcases key_cases name with isText | isMap | isFlag | rfl | rfl | rfl | rfl | unknown
    · rcases (hasNoFault_text_iff isText).mp noFault with rfl | ⟨text, rfl⟩
      · exact IsMember.noText isText
      · exact IsMember.text isText text
    · obtain ⟨members, rfl⟩ := (hasNoFault_map_iff isMap).mp noFault
      exact IsMember.map isMap members
    · obtain ⟨flag, rfl⟩ := (hasNoFault_flag_iff isFlag).mp noFault
      exact IsMember.flag isFlag flag
    · rcases hasNoFault_current_iff.mp noFault with rfl | ⟨flag, rfl⟩
      · exact IsMember.noCurrent
      · exact IsMember.current flag
    · exact IsMember.route (hasNoFault_route_iff.mp noFault)
    · exact IsMember.service (hasNoFault_service_iff.mp noFault)
    · rcases hasNoFault_children_iff.mp noFault with rfl | ⟨entries, rfl, each⟩
      · exact IsMember.noChildren
      · apply IsMember.children
        intro entry member
        exact (below entries rfl rfl entry member).mp (each entry member)
    · exact IsMember.other ((hasNoFault_unknown_iff unknown).mp noFault) unknown value
  · intro isMember
    cases isMember with
    | text isText text => exact (hasNoFault_text_iff isText).mpr (Or.inr ⟨text, rfl⟩)
    | noText isText => exact (hasNoFault_text_iff isText).mpr (Or.inl rfl)
    | map isMap members => exact (hasNoFault_map_iff isMap).mpr ⟨members, rfl⟩
    | flag isFlag flag => exact (hasNoFault_flag_iff isFlag).mpr ⟨flag, rfl⟩
    | current flag => exact hasNoFault_current_iff.mpr (Or.inr ⟨flag, rfl⟩)
    | noCurrent => exact hasNoFault_current_iff.mpr (Or.inl rfl)
    | route isRoute => exact hasNoFault_route_iff.mpr isRoute
    | service isService => exact hasNoFault_service_iff.mpr isService
    | children each =>
        refine hasNoFault_children_iff.mpr (Or.inr ⟨_, rfl, ?_⟩)
        intro entry member
        exact (below _ rfl rfl entry member).mpr (each entry member)
    | noChildren => exact hasNoFault_children_iff.mpr (Or.inl rfl)
    | other lenient unknown => exact (hasNoFault_unknown_iff unknown).mpr lenient

/-- Data has no fault exactly if it is an item by the rules. -/
theorem itemFault?_eq_none_iff (strict : Bool) (value : Data) :
    Grammar.itemFault? strict itemKeys itemKeys value = none ↔ IsItem strict value := by
  induction value using Data.itemInduction with
  | step value ih =>
    cases value with
    | null =>
        rw [Grammar.itemFault?]
        exact iff_of_true rfl IsItem.null
    | object members =>
        have eachIff : ∀ entry ∈ members,
            HasNoFault strict entry.1 entry.2 ↔ IsMember strict entry.1 entry.2 := by
          rintro ⟨name, value⟩ member
          apply isMember_iff
          rintro entries rfl rfl
          exact ih members entries rfl member
        rw [Grammar.itemFault?_object_eq_none_iff]
        constructor
        · intro noFault
          apply IsItem.object
          intro entry member
          exact (eachIff entry member).mp (noFault entry member)
        · intro isItem
          cases isItem with
          | object each =>
              intro entry member
              exact (eachIff entry member).mpr (each entry member)
    | bool _ | number _ | string _ | array _ =>
        refine ⟨fun none => ?_, fun isItem => ?_⟩
        · simp [Grammar.itemFault?] at none
        · cases isItem

end Item

end MenuPlan

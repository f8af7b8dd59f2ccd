/-
# Every value has one meaning, and every meaning one value

Resolving a value takes markers for what they mean. `Term.unresolved` goes back: it puts the marker
in front of the source of an expression, and in front of a literal text that begins with the marker
itself. `Term.IsResolved` says which terms are the meaning of anything. References are not, because
no configuration can write one; nor is a literal array or object, because resolving looks into it;
nor is an expression whose source begins with the marker, because two markers are an escape.

The main result is that resolving is a bijection between all values and these terms, with
`unresolved` as its inverse. Names are left alone, so it is one between the values and the terms
with distinct names as well.
-/

import MenuPlan.Proofs.Instruction.Restoring

namespace MenuPlan

namespace Data

/-- The value has no values inside. -/
inductive IsScalar : Data → Prop where
  | null : IsScalar .null
  | bool (value : Bool) : IsScalar (.bool value)
  | number (value : Number) : IsScalar (.number value)
  | string (value : String) : IsScalar (.string value)

end Data

namespace Term

/-- A term that some value means: scalars are literal, arrays and objects are resolved throughout,
and the source of an expression does not begin with the marker. -/
inductive IsResolved : Term → Prop where
  | literal {value : Data} (scalar : value.IsScalar) : IsResolved (.literal value)
  | sequence {items : List Term} (each : ∀ item ∈ items, IsResolved item) :
      IsResolved (.sequence items)
  | mapping {entries : List (String × Term)} (each : ∀ entry ∈ entries, IsResolved entry.2) :
      IsResolved (.mapping entries)
  | expression {source : String} (plain : ¬ IsMarked source) : IsResolved (.expression source)

/-- No mapping or object in the term, at any depth, has two entries with one name. -/
inductive HasDistinctNames : Term → Prop where
  | literal {value : Data} (distinct : value.Distinct) : HasDistinctNames (.literal value)
  | sequence {items : List Term} (each : ∀ item ∈ items, HasDistinctNames item) :
      HasDistinctNames (.sequence items)
  | mapping {entries : List (String × Term)} (own : Fields.Distinct entries)
      (each : ∀ entry ∈ entries, HasDistinctNames entry.2) : HasDistinctNames (.mapping entries)
  | reference (id : String) : HasDistinctNames (.reference id)
  | expression (source : String) : HasDistinctNames (.expression source)

mutual

/-- The value that means the term. No value means a reference; null stands in for it. -/
def unresolved : Term → Data
  | literal (.string text) => .string (if IsMarked text then "@" ++ text else text)
  | literal value => value
  | sequence items => .array (unresolvedItems items)
  | mapping entries => .object (unresolvedEntries entries)
  | reference _ => .null
  | expression source => .string ("@" ++ source)

/-- The values that mean the terms, in their order. -/
def unresolvedItems : List Term → List Data
  | [] => []
  | item :: rest => unresolved item :: unresolvedItems rest

/-- The values that mean the terms, in their order and under their names. -/
def unresolvedEntries : List (String × Term) → List (String × Data)
  | [] => []
  | (name, term) :: rest => (name, unresolved term) :: unresolvedEntries rest

end

theorem unresolvedItems_eq_map (items : List Term) :
    unresolvedItems items = items.map unresolved := by
  induction items with
  | nil => rfl
  | cons item rest ih => rw [unresolvedItems, ih, List.map_cons]

theorem unresolvedEntries_eq_mapValues (entries : List (String × Term)) :
    unresolvedEntries entries = Fields.mapValues unresolved entries := by
  induction entries with
  | nil => rfl
  | cons entry rest ih => rw [unresolvedEntries, ih]; rfl

/-- The meaning of a text is a literal text, or an expression whose source is not marked. -/
theorem isResolved_ofText (text : String) : (ofText text).IsResolved := by
  by_cases marked : IsMarked text
  · obtain ⟨rest, rfl⟩ := isMarked_iff.mp marked
    rw [ofText_append]
    split_ifs with escaped
    · exact .literal (.string rest)
    · exact .expression escaped
  · rw [ofText_of_not_isMarked marked]
    exact .literal (.string text)

/-- Every marker that has been taken away is put back. -/
theorem unresolved_ofText (text : String) : (ofText text).unresolved = .string text := by
  by_cases marked : IsMarked text
  · obtain ⟨rest, rfl⟩ := isMarked_iff.mp marked
    rw [ofText_append]
    split_ifs with escaped
    · rw [unresolved, if_pos escaped]
    · rw [unresolved]
  · rw [ofText_of_not_isMarked marked, unresolved, if_neg marked]

/-- A literal text is the meaning of what is written for it. -/
theorem ofText_escaped (text : String) :
    ofText (if IsMarked text then "@" ++ text else text) = .literal (.string text) := by
  by_cases marked : IsMarked text
  · rw [if_pos marked, ofText_append, if_pos marked]
  · rw [if_neg marked, ofText_of_not_isMarked marked]

/-- The meaning of a value is a resolved term. -/
theorem isResolved_ofData (value : Data) : (ofData value).IsResolved := by
  induction value using Data.valueInduction with
  | null => exact .literal .null
  | bool value => exact .literal (.bool value)
  | number value => exact .literal (.number value)
  | string text => exact isResolved_ofText text
  | array items ih =>
      rw [ofData, Item.ofItems_eq_map]
      exact .sequence (List.forall_mem_map.mpr ih)
  | object members ih =>
      rw [ofData, ofMembers_eq_mapValues]
      exact .mapping (List.forall_mem_map.mpr ih)

/-- The value is found again from its meaning. -/
theorem unresolved_ofData (value : Data) : (ofData value).unresolved = value := by
  induction value using Data.valueInduction with
  | null => rfl
  | bool value => rfl
  | number value => rfl
  | string text => exact unresolved_ofText text
  | array items ih =>
      have same : (items.map ofData).map unresolved = items := by
        rw [List.map_map]
        exact (List.map_congr_left ih).trans (List.map_id items)
      rw [ofData, Item.ofItems_eq_map, unresolved, unresolvedItems_eq_map, same]
  | object members ih =>
      have same : Fields.mapValues unresolved (Fields.mapValues ofData members) = members := by
        rw [Fields.mapValues, Fields.mapValues, List.map_map]
        refine (List.map_congr_left ?_).trans (List.map_id members)
        intro member inMembers
        exact Prod.ext rfl (ih member inMembers)
      rw [ofData, ofMembers_eq_mapValues, unresolved, unresolvedEntries_eq_mapValues, same]

/-- A resolved term is the meaning of the value that is found for it. -/
theorem ofData_unresolved {term : Term} (resolved : term.IsResolved) :
    ofData term.unresolved = term := by
  induction resolved with
  | literal scalar =>
      cases scalar with
      | null | bool | number => rfl
      | string text => exact ofText_escaped text
  | @sequence items each ih =>
      have same : (items.map unresolved).map ofData = items := by
        rw [List.map_map]
        exact (List.map_congr_left ih).trans (List.map_id items)
      rw [unresolved, unresolvedItems_eq_map, ofData, Item.ofItems_eq_map, same]
  | @mapping entries each ih =>
      have same : Fields.mapValues ofData (Fields.mapValues unresolved entries) = entries := by
        rw [Fields.mapValues, Fields.mapValues, List.map_map]
        refine (List.map_congr_left ?_).trans (List.map_id entries)
        intro entry inEntries
        exact Prod.ext rfl (ih entry inEntries)
      rw [unresolved, unresolvedEntries_eq_mapValues, ofData, ofMembers_eq_mapValues, same]
  | @expression source plain =>
      rw [unresolved, ofData, ofText_append, if_neg plain]

/-- Texts have no names inside. -/
theorem hasDistinctNames_ofText (text : String) : (ofText text).HasDistinctNames := by
  have resolved := isResolved_ofText text
  have isText : (ofText text).unresolved = .string text := unresolved_ofText text
  generalize ofText text = term at resolved isText ⊢
  cases resolved with
  | literal scalar => cases scalar <;> exact .literal trivial
  | expression => exact .expression _
  | sequence | mapping => cases isText

/-- A value has distinct names exactly if its meaning has. -/
theorem hasDistinctNames_ofData_iff (value : Data) :
    (ofData value).HasDistinctNames ↔ value.Distinct := by
  induction value using Data.valueInduction with
  | null => exact iff_of_true (.literal trivial) trivial
  | bool value => exact iff_of_true (.literal trivial) trivial
  | number value => exact iff_of_true (.literal trivial) trivial
  | string text => exact iff_of_true (hasDistinctNames_ofText text) trivial
  | array items ih =>
      rw [ofData, Item.ofItems_eq_map, Data.distinct_array_iff]
      constructor
      · rintro (_ | ⟨each⟩) item member
        exact (ih item member).mp (List.forall_mem_map.mp each item member)
      · intro each
        refine .sequence (List.forall_mem_map.mpr ?_)
        intro item member
        exact (ih item member).mpr (each item member)
  | object members ih =>
      have sameNames : Fields.Distinct (Fields.mapValues ofData members) ↔
          Fields.Distinct members := by
        rw [Fields.Distinct, Fields.names_mapValues, Fields.Distinct]
      rw [ofData, ofMembers_eq_mapValues, Data.distinct_object_iff, ← sameNames]
      constructor
      · rintro (_ | _ | ⟨own, each⟩)
        refine ⟨own, ?_⟩
        intro entry member
        exact (ih entry member).mp (List.forall_mem_map.mp each entry member)
      · rintro ⟨own, each⟩
        refine .mapping own (List.forall_mem_map.mpr ?_)
        intro entry member
        exact (ih entry member).mpr (each entry member)

/-- Resolving and going back are inverse to each other on the resolved terms. -/
theorem invOn_unresolved_ofData :
    Set.InvOn unresolved ofData Set.univ {term | term.IsResolved} :=
  ⟨fun value _ => unresolved_ofData value, fun _ resolved => ofData_unresolved resolved⟩

/-- Resolving is a bijection between all values and the resolved terms. -/
theorem bijOn_ofData : Set.BijOn ofData Set.univ {term | term.IsResolved} :=
  invOn_unresolved_ofData.bijOn (fun value _ => isResolved_ofData value) (Set.mapsTo_univ _ _)

/-- A resolved term is the meaning of exactly one value. -/
theorem IsResolved.existsUnique {term : Term} (resolved : term.IsResolved) :
    ∃! value, ofData value = term := by
  refine ⟨term.unresolved, ofData_unresolved resolved, ?_⟩
  rintro value rfl
  exact (unresolved_ofData value).symm

/-- Resolving is a bijection between the values of configurations and the resolved terms, and going
back is its inverse; distinct names stay distinct. So every scalar can be written literally, and
every source that does not begin with the marker as an expression, in one way each. -/
theorem ofData_bijective_onto_resolved :
    Set.BijOn ofData Set.univ {term | term.IsResolved} ∧
      Set.InvOn unresolved ofData Set.univ {term | term.IsResolved} ∧
      (∀ value, (ofData value).HasDistinctNames ↔ value.Distinct) ∧
      (∀ value : Data, value.IsScalar → ∃! written, ofData written = .literal value) ∧
      ∀ source, ¬ IsMarked source → ∃! written, ofData written = .expression source :=
  ⟨bijOn_ofData, invOn_unresolved_ofData, hasDistinctNames_ofData_iff,
    fun _ scalar => (IsResolved.literal scalar).existsUnique,
    fun _ plain => (IsResolved.expression plain).existsUnique⟩

/-- The empty source is written by the marker alone, and a text with two markers by a third one in
front, and nothing else means the same. -/
theorem markers_bijective_onto_resolved :
    (∃! written, ofData written = .expression "") ∧ ofData (.string "@") = .expression "" ∧
      (∃! written, ofData written = .literal (.string "@@x")) ∧
        ofData (.string "@@@x") = .literal (.string "@@x") := by
  obtain ⟨-, -, -, literal, expression⟩ := ofData_bijective_onto_resolved
  exact ⟨expression "" (by decide), by cbv, literal _ (.string "@@x"), by cbv⟩

end Term

end MenuPlan

/-
# Items that are restored

An item keeps parts of the data that it is read from, at every depth. If that data is restored, so
are all of these parts, and what the item becomes is written with nothing but them, with names and
with texts.
-/

import MenuPlan.Proofs.Instruction.Restoring
import MenuPlan.Proofs.Item.Parts

namespace MenuPlan

open Json (Restored restored_array_iff restored_object_iff restored_bool restored_string)

/-- Items with the names of fields are items of the array. -/
theorem RecordType.mem_of_mem_nameItems {type : RecordType} {index : Nat} {fields : List Field}
    {items : List Data} {members : Fields Data}
    (named : type.nameItems index fields items = .ok members) :
    ∀ entry ∈ members, entry.2 ∈ items := by
  fun_induction type.nameItems index fields items generalizing members with
  | case1 index field fields item items ih =>
      obtain ⟨-, -, named⟩ := bind_eq_ok_iff.mp named
      obtain ⟨later, isLater, isMembers⟩ := bind_eq_ok_iff.mp named
      cases isMembers
      intro entry member
      rcases List.mem_cons.mp member with rfl | inLater
      · exact List.mem_cons_self
      · exact List.mem_cons_of_mem _ (ih isLater entry inLater)
  | case2 index field fields isDefaulted ih => exact ih named
  | case3 => cases named
  | case4 =>
      cases named
      exact List.forall_mem_nil _
  | case5 => cases named

/-- The members of a record are restored if the record is, be it an object or an array. -/
theorem RecordType.restored_of_read {type : RecordType} {value : Data} {members : Fields Data}
    (restored : Restored value) (isRead : type.read value = .ok members) :
    ∀ entry ∈ members, Restored entry.2 := by
  cases value with
  | object written =>
      rw [eq_of_read_object isRead]
      exact (restored_object_iff.mp restored).2
  | array items =>
      intro entry member
      exact restored_array_iff.mp restored _ (mem_of_mem_nameItems isRead entry member)
  | null | bool _ | number _ | string _ => cases isRead

/-- The map under a name is restored if all members are. -/
theorem Fields.restored_mapAt {members : Fields Data} (each : ∀ entry ∈ members, Restored entry.2)
    (name : String) : Restored (.object (mapAt members name)) := by
  rw [mapAt]
  split
  · rename_i entries found
    exact each _ (mem_of_get?_eq_some found)
  · exact Json.restored_empty

/-- A part that is read as a mapping is restored if all members are. -/
theorem PartSet.restored {name : String} {members : List (String × Data)} {part : Fields Data}
    (set : PartSet name Data.map? members [] part) (each : ∀ entry ∈ members, Restored entry.2) :
    Restored (.object part) := by
  rcases set with ⟨-, rfl⟩ | ⟨value, member, isMap⟩
  · exact Json.restored_empty
  · have isRestored : Restored value := each _ member
    rwa [Data.map?_eq_ok_iff.mp isMap] at isRestored

/-- The data of a route is restored. -/
structure Route.IsRestored (route : Route) : Prop where
  parameters : Restored (.object route.parameters)
  absolute : Restored route.absolute

/-- A route that is read of restored data has restored data. -/
theorem Route.isRestored_of_read {value : Data} {route : Route} (restored : Restored value)
    (isRead : read value = .ok route) : route.IsRestored := by
  obtain ⟨members, isRecord, rfl⟩ := map_eq_ok_iff.mp isRead
  have each := RecordType.restored_of_read restored isRecord
  refine ⟨Fields.restored_mapAt each "parameters", ?_⟩
  cases found : Fields.get? members "absolute" with
  | none => exact restored_bool false
  | some absolute => exact each _ (Fields.mem_of_get?_eq_some found)

/-- The attributes of a route are written so that they are restored. -/
theorem Route.IsRestored.attributes {route : Route} (restored : route.IsRestored) :
    ∀ entry ∈ route.attributes, Restored entry.2.toData := by
  have isMap : Restored (Term.mapping (Term.ofMembers route.parameters)).toData := by
    rw [Term.toData]
    exact (Term.RestoredEntries.ofMembers restored.parameters).toData
  simp only [Route.attributes, List.forall_mem_cons]
  exact ⟨Term.restored_ofText _, isMap, Data.restored_inPlan restored.absolute,
    List.forall_mem_nil _⟩

/-- The data of a service is restored. -/
def Service.IsRestored (service : Service) : Prop :=
  ∀ parameters, service.parameters = some parameters → Restored parameters

/-- A service that is read of restored data has restored data. -/
theorem Service.isRestored_of_read {value : Data} {service : Service} (restored : Restored value)
    (isRead : read value = .ok service) : service.IsRestored := by
  obtain ⟨members, isRecord, rfl⟩ := map_eq_ok_iff.mp isRead
  intro parameters isSet
  obtain ⟨found, -⟩ := Option.filter_eq_some_iff.mp isSet
  exact RecordType.restored_of_read restored isRecord _ (Fields.mem_of_get?_eq_some found)

/-- The arguments that a service passes are restored if its parameters are. -/
theorem Service.Passes.restored {parameters : Option Data} {arguments : List Argument}
    (passes : Service.Passes parameters arguments)
    (restored : ∀ value, parameters = some value → Restored value) :
    ∀ argument ∈ arguments, Restored (Instruction.argumentToData argument) := by
  cases passes with
  | nothing => exact List.forall_mem_nil _
  | spread items =>
      have eachItem := restored_array_iff.mp (restored _ rfl)
      rw [List.forall_mem_map]
      exact fun item member => Data.restored_inPlan (eachItem item member)
  | single =>
      refine List.forall_mem_cons.mpr ⟨?_, List.forall_mem_nil _⟩
      exact Data.restored_inPlan (restored _ rfl)

namespace Item

/-- The record that a name stands for is restored. -/
theorem restored_expandName (field : String) {value : Data} (restored : Restored value) :
    Restored (expandName field value) := by
  cases value with
  | string text => exact Json.restored_single (restored_string text)
  | null | bool _ | number _ | array _ | object _ => exact restored

/-- The long form of a member is restored if the member is, provided that this holds for the items
below. -/
theorem restored_expandValue {name : String} {value : Data} (restored : Restored value)
    (below : ∀ entries, name = "children" → value = .object entries →
      ∀ entry ∈ entries, Restored entry.2 → Restored (expand entry.2)) :
    Restored (expandValue name value) := by
  rw [expandValue]
  split_ifs with isRoute isService isChildren
  · exact restored_expandName "name" restored
  · exact restored_expandName "id" restored
  · cases value with
    | object entries =>
        obtain ⟨distinct, each⟩ := restored_object_iff.mp restored
        rw [expandChildren, expandEntries_eq_map]
        refine Json.restored_of_distinct distinct fun entry member => ?_
        exact below entries isChildren rfl entry member (each entry member)
    | null => exact Json.restored_empty
    | bool _ | number _ | string _ | array _ => exact restored
  · exact restored

/-- The long form of data is restored if the data is: names stay where they are, and what is added
are objects with one member or none. -/
theorem restored_expand {raw : Data} (restored : Restored raw) : Restored (expand raw) := by
  induction raw using Data.itemInduction with
  | step raw ih =>
    cases raw with
    | object members =>
        obtain ⟨distinct, each⟩ := restored_object_iff.mp restored
        rw [expand, expandMembers_eq_map]
        refine Json.restored_of_distinct distinct ?_
        rintro ⟨name, value⟩ member
        apply restored_expandValue (each _ member)
        rintro entries rfl rfl
        exact ih members entries rfl member
    | null => exact Json.restored_empty
    | bool _ | number _ | string _ | array _ => exact restored

/-- All data that the item itself keeps is restored. -/
structure IsRestored (item : Item) : Prop where
  options : Restored (.object item.options)
  attributes : Restored (.object item.attributes)
  route : ∀ route, item.route = some route → route.IsRestored
  service : ∀ service, item.service = some service → service.IsRestored

/-- What an item keeps of restored data is restored. -/
theorem IsRestored.of_members {members : Fields Data} {item : Item}
    (restored : Restored (.object members)) (taken : TakesIn {} members item) :
    item.IsRestored := by
  have each := (restored_object_iff.mp restored).2
  constructor
  · exact taken.options.restored each
  · rw [taken.attributes, List.nil_append]
    exact restored.filter _
  · intro route isSet
    rcases taken.route with ⟨-, none⟩ | ⟨value, member, isRoute⟩
    · cases none.symm.trans isSet
    · rw [isSet] at isRoute
      exact Route.isRestored_of_read (each _ member) (readOptional_eq_some isRoute)
  · intro service isSet
    rcases taken.service with ⟨-, none⟩ | ⟨value, member, isService⟩
    · cases none.symm.trans isSet
    · rw [isSet] at isService
      exact Service.isRestored_of_read (each _ member) (readOptional_eq_some isService)

/-- An item in restored data keeps restored data, at every depth. -/
theorem everywhere_isRestored_of_normalize {strict : Bool} {location : String} {raw : Data}
    {item : Item} (restored : Restored raw) (isItem : normalize strict location raw = .ok item) :
    item.Everywhere IsRestored := by
  have isRead := (normalize_eq_ok_iff.mp isItem).2
  refine everywhere_of_read (fun _ _ => IsRestored.of_members) ?_ (restored_expand restored) isRead
  intro members entries restored member
  have isRestored : Restored (.object entries) := (restored_object_iff.mp restored).2 _ member
  exact (restored_object_iff.mp isRestored).2

/-- So does the item of a breadcrumb. -/
theorem everywhere_isRestored_of_breadcrumb {strict : Bool} {location : String} {raw : Data}
    {breadcrumb : Breadcrumb} (restored : Restored raw)
    (isBreadcrumb : Breadcrumb.normalize strict location raw = .ok breadcrumb) :
    breadcrumb.item.Everywhere IsRestored := by
  have withoutParent : Restored (Breadcrumb.withoutParent raw) := by
    cases raw with
    | object members => exact restored.filter _
    | null | bool _ | number _ | string _ | array _ => exact restored
  exact everywhere_isRestored_of_normalize withoutParent
    (Breadcrumb.normalize_eq_ok_iff.mp isBreadcrumb).2.1

/-- The attributes of an item are written so that they are restored. -/
theorem IsRestored.flatAttributes {item : Item} (restored : item.IsRestored) :
    Term.RestoredEntries item.flatAttributes := by
  have own : ∀ entry ∈ Fields.mapValues Term.literal item.attributes,
      Restored entry.2.toData := by
    rw [Fields.mapValues, List.forall_mem_map]
    exact (restored_object_iff.mp restored.attributes).2
  have route : ∀ entry ∈ item.route.elim [] Route.attributes, Restored entry.2.toData := by
    cases isRoute : item.route with
    | none => exact List.forall_mem_nil _
    | some route => exact (restored.route route isRoute).attributes
  have merged := ((Term.RestoredEntries.ofMembers restored.options).overlay own).overlay route
  exact (merged.erase "children").erase "expression"

/-- What an item becomes is written so that it is restored if this is so of the data that is kept,
at every depth. -/
theorem restored_instruction (settings : Settings) (name : String) {item : Item}
    (restored : item.Everywhere IsRestored) :
    Restored (Instruction.toData (item.instruction settings name)) := by
  induction item using treeInduction generalizing name with
  | step item ih =>
    obtain ⟨own, below⟩ := restored
    have attributes : Restored (Term.mapping item.flatAttributes).toData := by
      rw [Term.toData]
      exact own.flatAttributes.toData
    have mirrors := mirrors_instruction settings name item
    generalize item.instruction settings name = built at mirrors ⊢
    cases mirrors with
    | factory provided _ _ passes =>
        exact Instruction.restored_toData
          (Instruction.restored_factoryCall (passes.restored (own.service _ provided)))
          (List.forall_mem_nil _) (List.forall_mem_nil _)
    | service | expression =>
        refine Instruction.restored_toData ?_ (List.forall_mem_nil _) (List.forall_mem_nil _)
        simp [Instruction.originMembers]
    | @node _ _ calls _ _ _ attached =>
        refine Instruction.restored_toData (Instruction.restored_factoryCall ?_) ?_
          (List.forall_mem_nil _)
        · simp only [List.forall_mem_cons]
          exact ⟨restored_string name, attributes, List.forall_mem_nil _⟩
        · have sameCalls := attached.childCalls_eq fun _ _ _ _ mirrors => mirrors.instruction_eq
          rw [← sameCalls, childCalls_eq_map, List.forall_mem_map]
          intro entry isChild
          exact Instruction.restored_addChild entry.1
            (ih entry isChild entry.1 (below entry isChild))
    | leaf =>
        refine Instruction.restored_toData ?_ (List.forall_mem_nil _) (List.forall_mem_nil _)
        rw [Term.toData] at attributes
        simp [Instruction.originMembers, attributes]

end Item

end MenuPlan

/-
# Values that are restored

A value that has been written is read back as it is, up to two things: a number with a fraction may
come back as a neighbour, and an object with a repeated name loses a member. `Restored` says that
neither happens. It is a property of every part of a value, so it is carried through whatever takes
values apart and puts others together; and it holds of values whose objects have distinct names and
whose numbers are integers.
-/

import Mathlib
import MenuPlan.Proofs.Json.RoundTrip

namespace MenuPlan

namespace Json

/-- What is read where the value has been written is the value. -/
def Restored (value : Data) : Prop :=
  reread value = value

instance (value : Data) : Decidable (Restored value) :=
  inferInstanceAs (Decidable (reread value = value))

theorem rereadItems_eq_map (items : List Data) : rereadItems items = items.map reread := by
  induction items with
  | nil => rfl
  | cons item rest ih => rw [rereadItems, ih, List.map_cons]

theorem rereadMembers_eq_mapValues (members : Fields Data) :
    rereadMembers members = Fields.mapValues reread members := by
  induction members with
  | nil => rfl
  | cons member rest ih => rw [rereadMembers, ih]; rfl

@[simp] theorem restored_null : Restored .null := rfl

@[simp] theorem restored_bool (b : Bool) : Restored (.bool b) := rfl

@[simp] theorem restored_string (text : String) : Restored (.string text) := rfl

@[simp] theorem restored_int (n : Int) (inRange : InRange n) :
    Restored (.number (.int n inRange)) := by
  rw [Restored, reread, rereadNumber_int]

/-- An array is restored exactly if its items are. -/
theorem restored_array_iff {items : List Data} :
    Restored (.array items) ↔ ∀ item ∈ items, Restored item := by
  rw [Restored, reread, rereadItems_eq_map, Data.array.injEq]
  nth_rewrite 2 [← List.map_id items]
  exact List.map_inj_left

/-- An object is restored exactly if no name is repeated and its members are restored. -/
theorem restored_object_iff {members : Fields Data} :
    Restored (.object members) ↔
      Fields.Distinct members ∧ ∀ entry ∈ members, Restored entry.2 := by
  have sameNames : Fields.Distinct (Fields.mapValues reread members) ↔ Fields.Distinct members := by
    rw [Fields.Distinct, Fields.names_mapValues, Fields.Distinct]
  have sameValues : Fields.mapValues reread members = members ↔
      ∀ entry ∈ members, Restored entry.2 := by
    nth_rewrite 2 [← List.map_id members]
    rw [Fields.mapValues, List.map_inj_left]
    apply forall₂_congr
    intro entry _
    exact ⟨fun same => (Prod.mk.inj same).2, fun same => Prod.ext rfl same⟩
  rw [Restored, reread, rereadMembers_eq_mapValues, Data.ofMembers, Data.object.injEq]
  constructor
  · intro same
    have distinct : Fields.Distinct members := same ▸ Fields.distinct_ofEntries _
    rw [Fields.ofEntries_of_distinct (sameNames.mpr distinct), sameValues] at same
    exact ⟨distinct, same⟩
  · rintro ⟨distinct, each⟩
    rw [Fields.ofEntries_of_distinct (sameNames.mpr distinct), sameValues]
    exact each

/-- Fields whose values are written one by one are restored if their names are distinct. -/
theorem restored_of_distinct {α : Type} {fields : Fields α} {write : String × α → Data}
    (distinct : Fields.Distinct fields) (each : ∀ entry ∈ fields, Restored (write entry)) :
    Restored (.object (fields.map fun entry => (entry.1, write entry))) := by
  have sameNames : Fields.names (fields.map fun entry => (entry.1, write entry)) =
      Fields.names fields := by
    rw [Fields.names, Fields.names, List.map_map]
    rfl
  rw [restored_object_iff, Fields.Distinct, sameNames, List.forall_mem_map]
  exact ⟨distinct, each⟩

/-- An object is restored without some of its members if it is restored with them. -/
theorem Restored.filter {members : Fields Data} (restored : Restored (.object members))
    (keep : String × Data → Bool) : Restored (.object (members.filter keep)) := by
  obtain ⟨distinct, each⟩ := restored_object_iff.mp restored
  exact restored_object_iff.mpr
    ⟨distinct.filter keep, fun entry member => each entry (List.mem_of_mem_filter member)⟩

theorem restored_empty : Restored (.object []) :=
  restored_object_iff.mpr ⟨List.nodup_nil, List.forall_mem_nil _⟩

/-- An object with one member is restored if the member is. -/
theorem restored_single {name : String} {value : Data} (restored : Restored value) :
    Restored (.object [(name, value)]) := by
  refine restored_object_iff.mpr ⟨List.nodup_singleton name, ?_⟩
  intro entry member
  rwa [List.mem_singleton.mp member]

end Json

namespace Data

mutual

/-- All numbers in the value are integers. By its type, each of them fits 64 bits, be it with a sign
or without. -/
def Integral : Data → Prop
  | .number (.real _) => False
  | .array items => IntegralItems items
  | .object members => IntegralMembers members
  | .number (.int _ _) | .null | .bool _ | .string _ => True

/-- All numbers in the items are integers. -/
def IntegralItems : List Data → Prop
  | [] => True
  | item :: rest => Integral item ∧ IntegralItems rest

/-- All numbers in the values of the members are integers. -/
def IntegralMembers : List (String × Data) → Prop
  | [] => True
  | (_, value) :: rest => Integral value ∧ IntegralMembers rest

end

/-- An array has distinct names exactly if its items have. -/
theorem distinct_array_iff {items : List Data} :
    (array items).Distinct ↔ ∀ item ∈ items, item.Distinct := by
  rw [Distinct]
  induction items with
  | nil => exact iff_of_true trivial (List.forall_mem_nil _)
  | cons item rest ih => rw [DistinctItems, ih, List.forall_mem_cons]

/-- An object has distinct names exactly if its own are distinct and its members have. -/
theorem distinct_object_iff {members : Fields Data} :
    (object members).Distinct ↔
      Fields.Distinct members ∧ ∀ entry ∈ members, entry.2.Distinct := by
  have eachMember : DistinctMembers members ↔ ∀ entry ∈ members, entry.2.Distinct := by
    induction members with
    | nil => exact iff_of_true trivial (List.forall_mem_nil _)
    | cons entry rest ih => rw [DistinctMembers, ih, List.forall_mem_cons]
  rw [Distinct, eachMember]

end Data

namespace Json

mutual

/-- A value with distinct names and integers for its numbers is restored. -/
theorem Restored.of_integral : ∀ {value : Data}, value.Distinct → value.Integral → Restored value
  | .null, _, _ => restored_null
  | .bool b, _, _ => restored_bool b
  | .string text, _, _ => restored_string text
  | .number (.int n inRange), _, _ => restored_int n inRange
  | .number (.real _), _, integral => integral.elim
  | .array items, distinct, integral => by
      rw [Data.Distinct] at distinct
      rw [Data.Integral] at integral
      exact restored_array_iff.mpr (restored_items_of_integral distinct integral)
  | .object members, distinct, integral => by
      rw [Data.Distinct] at distinct
      rw [Data.Integral] at integral
      exact restored_object_iff.mpr
        ⟨distinct.1, restored_members_of_integral distinct.2 integral⟩

theorem restored_items_of_integral : ∀ {items : List Data}, Data.DistinctItems items →
    Data.IntegralItems items → ∀ item ∈ items, Restored item
  | [], _, _ => List.forall_mem_nil _
  | item :: rest, distinct, integral => by
      rw [Data.DistinctItems] at distinct
      rw [Data.IntegralItems] at integral
      exact List.forall_mem_cons.mpr ⟨Restored.of_integral distinct.1 integral.1,
        restored_items_of_integral distinct.2 integral.2⟩

theorem restored_members_of_integral : ∀ {members : List (String × Data)},
    Data.DistinctMembers members → Data.IntegralMembers members →
      ∀ entry ∈ members, Restored entry.2
  | [], _, _ => List.forall_mem_nil _
  | (_, value) :: rest, distinct, integral => by
      rw [Data.DistinctMembers] at distinct
      rw [Data.IntegralMembers] at integral
      exact List.forall_mem_cons.mpr ⟨Restored.of_integral distinct.1 integral.1,
        restored_members_of_integral distinct.2 integral.2⟩

end

end Json

end MenuPlan

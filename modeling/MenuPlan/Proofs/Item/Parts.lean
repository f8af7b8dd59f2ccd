/-
# The instructions of items

Every instruction that an item becomes, at any depth, has one of the shapes of
`Instruction.IsInner`. Most of this follows from how the item is built, whatever it is. The ids of
services are the exception: that they are not empty is a matter of the grammar, which an item in a
document obeys at every depth, in its short forms as in its long ones.
-/

import MenuPlan.Proofs.Instruction.Parts
import MenuPlan.Proofs.Item.Members

namespace MenuPlan

/-- A record that is read has the members it is read from. -/
theorem RecordType.eq_of_read_object {type : RecordType} {members found : Fields Data}
    (isRead : type.read (.object members) = .ok found) : found = members := by
  obtain ⟨_, -, complete⟩ := bind_eq_ok_iff.mp isRead
  obtain ⟨_, -, isFound⟩ := bind_eq_ok_iff.mp complete
  exact (Except.ok.inj isFound).symm

/-- A service in the grammar has an id. -/
theorem Service.id_ne_empty_of_read {raw : Data} {service : Service}
    (isService : IsNameOrRecord "id" IsMember raw)
    (isRead : read (Item.expandName "id" raw) = .ok service) : service.id ≠ "" := by
  have ofRecord : ∀ members : Fields Data, read (.object members) = .ok service →
      service.id = Fields.textAt members "id" := by
    intro members isRecord
    obtain ⟨found, isFound, rfl⟩ := map_eq_ok_iff.mp isRecord
    rw [RecordType.eq_of_read_object isFound]
  cases isService with
  | null => cases isRead
  | name nonEmpty =>
      rw [ofRecord _ isRead]
      exact nonEmpty
  | @record members isNamed each =>
      rw [ofRecord _ isRead, Fields.textAt]
      obtain ⟨value, isValue⟩ := Option.isSome_iff_exists.mp
        ((Fields.get?_isSome_iff members "id").mpr isNamed)
      obtain ⟨text, rfl, nonEmpty⟩ :=
        Service.isMember_id_iff.mp (each _ (Fields.mem_of_get?_eq_some isValue))
      rw [isValue]
      exact nonEmpty

/-- The arguments of a service are values. -/
theorem Service.Passes.exists_terms {parameters : Option Data} {arguments : List Argument}
    (passes : Service.Passes parameters arguments) :
    ∃ terms : List Term, arguments = terms.map Argument.value := by
  cases passes with
  | nothing => exact ⟨[], rfl⟩
  | spread items => exact ⟨items.map Term.ofData, (List.map_map ..).symm⟩
  | single => exact ⟨[_], rfl⟩

namespace Item

variable {settings : Settings} {strict : Bool}

/-- Every service in the tree has an id. -/
def NamesServices (item : Item) : Prop :=
  item.Everywhere fun item => ∀ service, item.service = some service → service.id ≠ ""

/-- The data is the long form of data in the grammar. -/
def IsLongForm (strict : Bool) (value : Data) : Prop :=
  ∃ raw, IsItem strict raw ∧ expand raw = value

/-- A member of the long form is the long form of a member without fault. -/
theorem IsLongForm.exists_member {members : Fields Data} {name : String} {value : Data}
    (isLong : IsLongForm strict (.object members)) (member : (name, value) ∈ members) :
    ∃ raw, HasNoFault strict name raw ∧ expandValue name raw = value := by
  obtain ⟨raw, isItem, isExpanded⟩ := isLong
  cases isItem with
  | null =>
      cases isExpanded
      cases member
  | @object rawMembers each =>
      cases isExpanded
      obtain ⟨rawValue, rawMember, isValue⟩ := mem_expandMembers_iff.mp member
      have noFault := isItem_object_iff.mp (IsItem.object each) _ rawMember
      exact ⟨rawValue, noFault, isValue⟩

/-- The items below a long form have long forms. -/
theorem IsLongForm.below {members : Fields Data} {entries : List (String × Data)}
    (isLong : IsLongForm strict (.object members))
    (member : ("children", .object entries) ∈ members) :
    ∀ entry ∈ entries, IsLongForm strict entry.2 := by
  obtain ⟨raw, noFault, isValue⟩ := isLong.exists_member member
  have isChildren : expandChildren raw = .object entries := isValue
  rcases hasNoFault_children_iff.mp noFault with rfl | ⟨rawEntries, rfl, each⟩
  · cases isChildren
    exact List.forall_mem_nil _
  · rw [expandChildren, Data.object.injEq, expandEntries_eq_map] at isChildren
    rintro _ isEntry
    rw [← isChildren] at isEntry
    obtain ⟨rawEntry, isRaw, rfl⟩ := List.mem_map.mp isEntry
    exact ⟨rawEntry.2, (itemFault?_eq_none_iff strict _).mp (each rawEntry isRaw), rfl⟩

/-- An item in the grammar names its services, at any depth. -/
theorem NamesServices.of_normalize {location : String} {raw : Data} {item : Item}
    (isItem : normalize strict location raw = .ok item) : item.NamesServices := by
  obtain ⟨inGrammar, isRead⟩ := normalize_eq_ok_iff.mp isItem
  have isLong : IsLongForm strict (expand raw) := ⟨raw, inGrammar, rfl⟩
  refine everywhere_of_read ?_ (fun _ _ isLong member => isLong.below member) isLong isRead
  intro members item isLong taken service isSet
  rcases taken.service with ⟨-, none⟩ | ⟨value, member, isService⟩
  · cases none.symm.trans isSet
  · obtain ⟨raw, noFault, isValue⟩ := isLong.exists_member member
    have isExpanded : expandName "id" raw = value := isValue
    rw [isSet, ← isExpanded] at isService
    exact Service.id_ne_empty_of_read (hasNoFault_service_iff.mp noFault)
      (readOptional_eq_some isService)

/-- The calls for the children of an item attach the instructions of the children. -/
theorem attachesChildren_of_childCalls {children : List (String × Item)} {instruction : Instruction}
    (isCalls : instruction.calls = childCalls settings children) :
    instruction.AttachesChildren := by
  rw [Instruction.attachesChildren_iff, isCalls, childCalls_eq_map]
  intro call isCall
  obtain ⟨entry, -, rfl⟩ := List.mem_map.mp isCall
  exact ⟨_, _, rfl⟩

/-- An item that names its services becomes an inner instruction. -/
theorem isInner_instruction (settings : Settings) (name : String) {item : Item}
    (named : ∀ service, item.service = some service → service.id ≠ "") :
    Instruction.IsInner settings (item.instruction settings name) := by
  have mirrors := mirrors_instruction settings name item
  generalize item.instruction settings name = built at mirrors ⊢
  cases mirrors with
  | factory provided _ nonEmpty passes =>
      obtain ⟨terms, rfl⟩ := passes.exists_terms
      exact Instruction.IsInner.serviceCall (named _ provided) nonEmpty
  | service provided => exact Instruction.IsInner.serviceReference (named _ provided)
  | expression _ _ nonEmpty => exact Instruction.IsInner.expression nonEmpty
  | node _ _ hasChildren attached =>
      have sameCalls := attached.childCalls_eq fun _ _ _ _ mirrors => mirrors.instruction_eq
      exact Instruction.IsInner.node rfl (children_notMem_flatAttributes item)
        (expression_notMem_flatAttributes item) (sameCalls ▸ childCalls_ne_nil hasChildren)
        (attachesChildren_of_childCalls sameCalls.symm) rfl
  | leaf =>
      exact Instruction.IsInner.plainMap (children_notMem_flatAttributes item)
        (expression_notMem_flatAttributes item)

/-- An item has no calls, or one for each of its children. -/
theorem calls_instruction (settings : Settings) (name : String) (item : Item) :
    (item.instruction settings name).calls = [] ∨
      (item.instruction settings name).calls = childCalls settings item.children := by
  have mirrors := mirrors_instruction settings name item
  generalize item.instruction settings name = built at mirrors ⊢
  cases mirrors with
  | node _ _ _ attached =>
      exact Or.inr (attached.childCalls_eq fun _ _ _ _ mirrors => mirrors.instruction_eq).symm
  | factory | service | expression | leaf => exact Or.inl rfl

/-- An item that names its services becomes an instruction that is inner throughout. -/
theorem throughout_isInner {item : Item} (named : item.NamesServices) (name : String) :
    Instruction.Throughout (Instruction.IsInner settings) (item.instruction settings name) := by
  induction item using treeInduction generalizing name with
  | step item ih =>
    obtain ⟨own, below⟩ := named
    have isInner := isInner_instruction settings name own
    refine ⟨isInner, ?_⟩
    intro part isPart
    obtain ⟨childName, isCall⟩ := isInner.onlyAttaches.isPart_iff.mp isPart
    rcases calls_instruction settings name item with none | isChildCalls
    · rw [none] at isCall
      cases isCall
    · rw [isChildCalls, childCalls_eq_map] at isCall
      obtain ⟨entry, isChild, isAdded⟩ := List.mem_map.mp isCall
      rw [← Call.child_eq_of_addChild_eq isAdded]
      exact ih entry isChild (below entry isChild) entry.1

end Item

end MenuPlan

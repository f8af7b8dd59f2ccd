/-
# What the data of an instruction says

Arguments are written without a mark, so the data of an instruction does not always tell a term from
an instruction: a literal object can look like either. It does for instructions that only attach
children, because then the places of instructions are known: the factory takes values, and a call
has the child as its last argument. What the data cannot tell is how a term came about; an
expression and a literal object of the same form are written alike. `asWritten` puts such terms into
one form, a literal of what is written for them.

Up to this, two such instructions with the same data are equal. The proof goes down from the whole
to its parts: the kind comes first and decides which members follow, and each call is an object of
its own.
-/

import MenuPlan.Instruction.ToData
import MenuPlan.Proofs.Instruction.Parts

namespace MenuPlan

/-- Where two lists have the same images under a function, they have the same images under any
function that tells no more of their items apart. -/
theorem map_eq_map_of_map_eq_map {α β γ : Type} {f : α → β} {g : α → γ} {items others : List α}
    (each : ∀ item ∈ items, ∀ other ∈ others, f item = f other → g item = g other)
    (same : items.map f = others.map f) : items.map g = others.map g := by
  induction items generalizing others with
  | nil =>
      rw [List.map_nil, eq_comm, List.map_eq_nil_iff] at same
      rw [same]
  | cons item rest ih =>
      cases others with
      | nil => cases same
      | cons other more =>
          obtain ⟨sameHead, sameRest⟩ := List.cons.inj same
          rw [List.map_cons, List.map_cons,
            each item List.mem_cons_self other List.mem_cons_self sameHead,
            ih (fun first isFirst second isSecond =>
              each first (List.mem_cons_of_mem _ isFirst) second (List.mem_cons_of_mem _ isSecond))
              sameRest]

/-- Fields with the same images are the same if their values are. -/
theorem Fields.mapValues_injective {α β : Type} {f : α → β} (injective : Function.Injective f) :
    Function.Injective (Fields.mapValues f) := by
  apply Function.Injective.list_map
  intro first second same
  exact Prod.ext (Prod.mk.inj same).1 (injective (Prod.mk.inj same).2)

/-- A term as a literal of what is written for it. -/
def Term.asWritten (term : Term) : Term :=
  .literal term.toData

/-- Named terms are written one by one. -/
theorem Term.entriesToData_eq_mapValues (entries : Fields Term) :
    entriesToData entries = Fields.mapValues toData entries := by
  induction entries with
  | nil => rfl
  | cons entry rest ih => rw [entriesToData, ih]; rfl

/-- Named terms as they are written are literals of what is written for them. -/
theorem Term.mapValues_asWritten (entries : Fields Term) :
    Fields.mapValues asWritten entries = Fields.mapValues literal (entriesToData entries) := by
  rw [entriesToData_eq_mapValues, Fields.mapValues, Fields.mapValues, Fields.mapValues,
    List.map_map]
  rfl

/-- Factories are written in full. -/
theorem FactoryRef.toData_injective : Function.Injective FactoryRef.toData := by
  rintro ⟨service, method⟩ ⟨otherService, otherMethod⟩ same
  simpa [toData] using same

namespace Instruction

mutual

/-- An instruction with every term as it is written. -/
def asWritten : Instruction → Instruction
  | ⟨origin, calls, tags⟩ => ⟨originAsWritten origin, callsAsWritten calls, tags⟩

/-- An origin with every term as it is written. -/
def originAsWritten : Origin → Origin
  | .factoryCall targetType factory arguments =>
      .factoryCall targetType factory (argumentsAsWritten arguments)
  | .serviceReference id => .serviceReference id
  | .expression source => .expression source
  | .plainMap attributes => .plainMap (Fields.mapValues Term.asWritten attributes)

/-- An argument with every term as it is written. -/
def argumentAsWritten : Argument → Argument
  | .value term => .value term.asWritten
  | .instruction instruction => .instruction (asWritten instruction)

/-- Arguments with every term as it is written. -/
def argumentsAsWritten : List Argument → List Argument
  | [] => []
  | argument :: rest => argumentAsWritten argument :: argumentsAsWritten rest

/-- A call with every term as it is written. -/
def callAsWritten : Call → Call
  | ⟨method, arguments⟩ => ⟨method, argumentsAsWritten arguments⟩

/-- Calls with every term as it is written. -/
def callsAsWritten : List Call → List Call
  | [] => []
  | call :: rest => callAsWritten call :: callsAsWritten rest

end

mutual

/-- Terms as they are written are written in the same way. -/
theorem toData_asWritten : ∀ instruction : Instruction,
    toData (asWritten instruction) = toData instruction
  | ⟨origin, calls, tags⟩ => by
      rw [asWritten, toData, toData, originMembers_asWritten origin, callsToData_asWritten calls]

theorem originMembers_asWritten : ∀ origin : Origin,
    originMembers (originAsWritten origin) = originMembers origin
  | .factoryCall targetType factory arguments => by
      rw [originAsWritten, originMembers, originMembers, argumentsToData_asWritten arguments]
  | .serviceReference _ => rfl
  | .expression _ => rfl
  | .plainMap attributes => by
      rw [originAsWritten, originMembers, originMembers, Term.entriesToData_eq_mapValues,
        Term.entriesToData_eq_mapValues, Fields.mapValues, Fields.mapValues, List.map_map]
      rfl

theorem argumentToData_asWritten : ∀ argument : Argument,
    argumentToData (argumentAsWritten argument) = argumentToData argument
  | .value _ => rfl
  | .instruction instruction => by
      rw [argumentAsWritten, argumentToData, argumentToData, toData_asWritten instruction]

theorem argumentsToData_asWritten : ∀ arguments : List Argument,
    argumentsToData (argumentsAsWritten arguments) = argumentsToData arguments
  | [] => rfl
  | argument :: rest => by
      rw [argumentsAsWritten, argumentsToData, argumentsToData, argumentToData_asWritten argument,
        argumentsToData_asWritten rest]

theorem callToData_asWritten : ∀ call : Call, callToData (callAsWritten call) = callToData call
  | ⟨method, arguments⟩ => by
      rw [callAsWritten, callToData, callToData, argumentsToData_asWritten arguments]

theorem callsToData_asWritten : ∀ calls : List Call,
    callsToData (callsAsWritten calls) = callsToData calls
  | [] => rfl
  | call :: rest => by
      rw [callsAsWritten, callsToData, callsToData, callToData_asWritten call,
        callsToData_asWritten rest]

end

theorem argumentsToData_eq_map (arguments : List Argument) :
    argumentsToData arguments = arguments.map argumentToData := by
  induction arguments with
  | nil => rfl
  | cons argument rest ih => rw [argumentsToData, ih, List.map_cons]

theorem argumentsAsWritten_eq_map (arguments : List Argument) :
    argumentsAsWritten arguments = arguments.map argumentAsWritten := by
  induction arguments with
  | nil => rfl
  | cons argument rest ih => rw [argumentsAsWritten, ih, List.map_cons]

theorem callsToData_eq_map (calls : List Call) : callsToData calls = calls.map callToData := by
  induction calls with
  | nil => rfl
  | cons call rest ih => rw [callsToData, ih, List.map_cons]

theorem callsAsWritten_eq_map (calls : List Call) :
    callsAsWritten calls = calls.map callAsWritten := by
  induction calls with
  | nil => rfl
  | cons call rest ih => rw [callsAsWritten, ih, List.map_cons]

/-- Tags are written in full. -/
theorem tagMembers_injective : Function.Injective tagMembers := by
  have attributes : Function.Injective attributesToData := by
    intro first second same
    exact Fields.mapValues_injective (fun _ _ => Data.string.inj) (Data.object.inj same)
  have entries : Function.Injective fun entries : List (Fields String) =>
      Data.array (entries.map attributesToData) := by
    intro first second same
    exact attributes.list_map (Data.array.inj same)
  intro tags others same
  rw [tagMembers, tagMembers] at same
  split_ifs at same with noTags noOthers
  · rw [List.isEmpty_iff.mp noTags, List.isEmpty_iff.mp noOthers]
  · have sameMember := (Prod.mk.inj (List.cons.inj same).1).2
    exact Fields.mapValues_injective entries (Data.object.inj sameMember)

/-- No tags are written under the name of the calls. -/
theorem tagMembers_ne_calls (tags : Tags) (value : Data) (rest : List (String × Data)) :
    tagMembers tags ≠ ("method_calls", value) :: rest := by
  rw [tagMembers]
  split_ifs <;> simp

/-- Calls and tags are told apart by the names of their members. -/
theorem eq_of_calls_and_tags {calls others : List Data} {tags otherTags : Tags}
    (same : memberUnlessEmpty "method_calls" calls ++ tagMembers tags =
      memberUnlessEmpty "method_calls" others ++ tagMembers otherTags) :
    calls = others ∧ tags = otherTags := by
  cases calls with
  | nil =>
      cases others with
      | nil => exact ⟨rfl, tagMembers_injective same⟩
      | cons other more => exact absurd same (tagMembers_ne_calls tags _ _)
  | cons call rest =>
      cases others with
      | nil => exact absurd same.symm (tagMembers_ne_calls otherTags _ _)
      | cons other more =>
          obtain ⟨sameCalls, sameTags⟩ := List.cons.inj same
          exact ⟨Data.array.inj (Prod.mk.inj sameCalls).2, tagMembers_injective sameTags⟩

/-- Arguments that are values have the form of what is written. -/
theorem argumentsAsWritten_eq_of_values {arguments others : List Argument}
    (values : ∀ argument ∈ arguments, ∃ term, argument = .value term)
    (otherValues : ∀ argument ∈ others, ∃ term, argument = .value term)
    (same : argumentsToData arguments = argumentsToData others) :
    argumentsAsWritten arguments = argumentsAsWritten others := by
  rw [argumentsToData_eq_map, argumentsToData_eq_map] at same
  rw [argumentsAsWritten_eq_map, argumentsAsWritten_eq_map]
  apply map_eq_map_of_map_eq_map _ same
  intro argument isArgument other isOther sameData
  obtain ⟨term, rfl⟩ := values argument isArgument
  obtain ⟨otherTerm, rfl⟩ := otherValues other isOther
  have sameTerm : term.toData = otherTerm.toData := sameData
  rw [argumentAsWritten, argumentAsWritten, Term.asWritten, Term.asWritten, sameTerm]

/-- The kind of an origin comes first and says which members follow. -/
theorem originAsWritten_eq_of_members {first second : Instruction} (plain : first.OnlyAttaches)
    (otherPlain : second.OnlyAttaches) {rest others : List (String × Data)}
    (same : originMembers first.origin ++ rest = originMembers second.origin ++ others) :
    originAsWritten first.origin = originAsWritten second.origin ∧ rest = others := by
  have values := plain.values
  have otherValues := otherPlain.values
  cases isFirst : first.origin with
  | factoryCall targetType factory arguments =>
      cases isSecond : second.origin with
      | factoryCall otherType otherFactory otherArguments =>
          obtain ⟨rfl, sameFactory, sameArguments, rfl⟩ :
              targetType = otherType ∧ factory.toData = otherFactory.toData ∧
                argumentsToData arguments = argumentsToData otherArguments ∧ rest = others := by
            simpa [isFirst, isSecond, originMembers] using same
          rw [originAsWritten, originAsWritten, FactoryRef.toData_injective sameFactory,
            argumentsAsWritten_eq_of_values (values _ _ _ isFirst) (otherValues _ _ _ isSecond)
              sameArguments]
          exact ⟨rfl, rfl⟩
      | serviceReference | expression | plainMap => simp [isFirst, isSecond, originMembers] at same
  | serviceReference id =>
      cases isSecond : second.origin with
      | serviceReference other =>
          simpa [isFirst, isSecond, originMembers, originAsWritten] using same
      | factoryCall | expression | plainMap => simp [isFirst, isSecond, originMembers] at same
  | expression source =>
      cases isSecond : second.origin with
      | expression other => simpa [isFirst, isSecond, originMembers, originAsWritten] using same
      | factoryCall | serviceReference | plainMap => simp [isFirst, isSecond, originMembers] at same
  | plainMap attributes =>
      cases isSecond : second.origin with
      | plainMap other =>
          obtain ⟨sameAttributes, rfl⟩ :
              Term.entriesToData attributes = Term.entriesToData other ∧ rest = others := by
            simpa [isFirst, isSecond, originMembers] using same
          rw [originAsWritten, originAsWritten, Term.mapValues_asWritten, sameAttributes,
            ← Term.mapValues_asWritten]
          exact ⟨rfl, rfl⟩
      | factoryCall | serviceReference | expression =>
          simp [isFirst, isSecond, originMembers] at same

/-- A call that attaches a child determines the name, if there is one, and the data of the child. -/
theorem callAsWritten_addChild_eq {name other : String} {child part : Instruction}
    (each : toData child = toData part → asWritten child = asWritten part)
    (same : callToData (Call.addChild name child) = callToData (Call.addChild other part)) :
    callAsWritten (Call.addChild name child) = callAsWritten (Call.addChild other part) := by
  rw [Call.addChild, Call.addChild] at same ⊢
  split_ifs at same ⊢ with isNamed otherNamed otherNamed
  · have sameChild : toData child = toData part := by
      simpa [callToData, argumentsToData, argumentToData] using same
    simp [callAsWritten, argumentsAsWritten, argumentAsWritten, each sameChild]
  · simp [callToData, argumentsToData] at same
  · simp [callToData, argumentsToData] at same
  · obtain ⟨rfl, sameChild⟩ : name = other ∧ toData child = toData part := by
      simpa [callToData, argumentsToData, argumentToData, Term.text, Term.toData] using same
    simp [callAsWritten, argumentsAsWritten, argumentAsWritten, each sameChild]

/-- Instructions that only attach children, at every depth, are written alike only if they are equal
up to what is written for their terms. The induction is on the first one, from its parts to the
whole. -/
theorem asWritten_eq_of_toData_eq {first second : Instruction}
    (plain : Throughout OnlyAttaches first) (otherPlain : Throughout OnlyAttaches second)
    (same : toData first = toData second) : asWritten first = asWritten second := by
  induction plain generalizing second with
  | @intro first own below ih =>
    obtain ⟨otherOwn, otherBelow⟩ := otherPlain
    have sameMembers : originMembers first.origin ++
        (memberUnlessEmpty "method_calls" (callsToData first.calls) ++ tagMembers first.tags) =
          originMembers second.origin ++
            (memberUnlessEmpty "method_calls" (callsToData second.calls) ++
              tagMembers second.tags) := by
      cases first
      cases second
      rw [← List.append_assoc, ← List.append_assoc]
      exact Data.object.inj same
    obtain ⟨sameOrigin, sameRest⟩ := originAsWritten_eq_of_members own otherOwn sameMembers
    obtain ⟨sameCalls, sameTags⟩ := eq_of_calls_and_tags sameRest
    have callsWritten : callsAsWritten first.calls = callsAsWritten second.calls := by
      rw [callsToData_eq_map, callsToData_eq_map] at sameCalls
      rw [callsAsWritten_eq_map, callsAsWritten_eq_map]
      apply map_eq_map_of_map_eq_map _ sameCalls
      intro call isCall other isOther sameCall
      obtain ⟨name, child, rfl⟩ := attachesChildren_iff.mp own.attached call isCall
      obtain ⟨otherName, part, rfl⟩ := attachesChildren_iff.mp otherOwn.attached other isOther
      apply callAsWritten_addChild_eq _ sameCall
      exact ih child (own.isPart_iff.mpr ⟨name, isCall⟩)
        (otherBelow part (otherOwn.isPart_iff.mpr ⟨otherName, isOther⟩))
    cases first
    cases second
    rw [asWritten, asWritten]
    exact congr (congr (congrArg mk sameOrigin) callsWritten) sameTags

/-- Such instructions are written alike exactly if they are equal up to what is written for their
terms. -/
theorem toData_eq_iff_asWritten_eq {first second : Instruction}
    (plain : Throughout OnlyAttaches first) (otherPlain : Throughout OnlyAttaches second) :
    toData first = toData second ↔ asWritten first = asWritten second := by
  constructor
  · exact asWritten_eq_of_toData_eq plain otherPlain
  · intro same
    rw [← toData_asWritten first, same, toData_asWritten]

end Instruction

end MenuPlan

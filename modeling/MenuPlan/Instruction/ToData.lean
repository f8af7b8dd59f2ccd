/-
# Instructions as data

The form of instructions in a plan file. The members of the origin come first, led by its kind;
calls and tags are left out when there are none. Arguments are not marked: a term is written as it
is, an instruction as its object.
-/

import MenuPlan.Instruction.Basic

namespace MenuPlan

/-- A member that is left out when its list is empty. -/
def memberUnlessEmpty (name : String) : List Data → List (String × Data)
  | [] => []
  | items => [(name, .array items)]

namespace Instruction

/-- The attributes of a tag entry as data. -/
def attributesToData (attributes : Fields String) : Data :=
  .object (Fields.mapValues .string attributes)

/-- Tags as members of an instruction. -/
def tagMembers (tags : Tags) : List (String × Data) :=
  if tags.isEmpty then []
  else [("tags", .object
    (Fields.mapValues (fun entries => .array (entries.map attributesToData)) tags))]

mutual

/-- An instruction as data. -/
def toData : Instruction → Data
  | ⟨origin, calls, tags⟩ =>
      .object (originMembers origin ++ memberUnlessEmpty "method_calls" (callsToData calls)
        ++ tagMembers tags)

/-- The members that describe an origin. -/
def originMembers : Origin → List (String × Data)
  | .factoryCall targetType factory arguments => [
      ("kind", .string "factory_call"),
      ("target_type", .string targetType),
      ("factory", factory.toData),
      ("arguments", .array (argumentsToData arguments))]
  | .serviceReference id => [("kind", .string "service_reference"), ("id", .string id)]
  | .expression source => [("kind", .string "expression_ref"), ("source", .string source)]
  | .plainMap attributes => [
      ("kind", .string "plain_map"),
      ("attributes", .object (Term.entriesToData attributes))]

/-- An argument as data. -/
def argumentToData : Argument → Data
  | .value term => term.toData
  | .instruction instruction => toData instruction

/-- Arguments as data. -/
def argumentsToData : List Argument → List Data
  | [] => []
  | argument :: rest => argumentToData argument :: argumentsToData rest

/-- A call as data. -/
def callToData : Call → Data
  | ⟨method, arguments⟩ =>
      .object [("method", .string method), ("arguments", .array (argumentsToData arguments))]

/-- Calls as data. -/
def callsToData : List Call → List Data
  | [] => []
  | call :: rest => callToData call :: callsToData rest

end

end Instruction

end MenuPlan

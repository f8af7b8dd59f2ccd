/-
# Instructions

An instruction says how to obtain one object without obtaining it: call a factory, take a service,
evaluate an expression, or just take a map of attributes. Afterwards methods are called on the
object in order, whose arguments may be instructions themselves; children are attached this way.
Tags attach an object to names outside the plan.
-/

import MenuPlan.Record
import MenuPlan.Term

namespace MenuPlan

/-- A method of an object that serves as a factory. -/
structure FactoryRef where
  service : String
  method : String
deriving DecidableEq

namespace FactoryRef

/-- The fields of a factory reference. -/
def recordType : RecordType where
  title := "struct FactoryRef"
  fields := [⟨"service", .text, .required⟩, ⟨"method", .text, .required⟩]

/-- Reads a factory reference. -/
def read (value : Data) : Except Mismatch FactoryRef := do
  let members ← recordType.read value
  return { service := Fields.textAt members "service", method := Fields.textAt members "method" }

/-- A factory reference as data. -/
def toData (factory : FactoryRef) : Data :=
  .object [("service", .string factory.service), ("method", .string factory.method)]

end FactoryRef

/-- The entries under a tag, each with its attributes. -/
abbrev Tags := Fields (List (Fields String))

mutual

/-- How to obtain an object, and what to do with it. -/
structure Instruction where
  origin : Origin
  calls : List Call := []
  tags : Tags := []

/-- Where an object comes from. -/
inductive Origin where
  | factoryCall (targetType : String) (factory : FactoryRef) (arguments : List Argument)
  | serviceReference (id : String)
  | expression (source : String)
  /-- No object, but attributes for whoever receives them. -/
  | plainMap (attributes : List (String × Term))

/-- An argument of a call. -/
inductive Argument where
  | value (term : Term)
  | instruction (instruction : Instruction)

/-- A method call. -/
structure Call where
  method : String
  arguments : List Argument

end

namespace Origin

instance : Inhabited Origin := ⟨.plainMap []⟩

/-- Whether the object knows its own name, so that it is attached without one. -/
def isNamed : Origin → Bool
  | serviceReference _ | expression _ => true
  | factoryCall _ _ _ | plainMap _ => false

end Origin

namespace Argument

/-- The instruction in an argument. -/
def instruction? : Argument → Option Instruction
  | instruction i => some i
  | value _ => none

end Argument

namespace Call

/-- The method that attaches a child. -/
def addChildMethod : String := "addChild"

/-- Attaches a child. The name is passed along unless the child knows its own. -/
def addChild (name : String) (child : Instruction) : Call where
  method := addChildMethod
  arguments :=
    if child.origin.isNamed then [.instruction child]
    else [.value (.text name), .instruction child]

/-- The last instruction among the arguments. -/
def child? (call : Call) : Option Instruction :=
  call.arguments.reverse.findSome? Argument.instruction?

/-- The name that a child is attached under, if it is passed along. -/
def childName? (call : Call) : Option String :=
  match call.arguments with
  | [.value name, .instruction _] => name.text?
  | _ => none

end Call

namespace Instruction

instance : Inhabited Instruction := ⟨{ origin := default }⟩

/-- The instruction to call a factory. -/
def factoryCall (targetType : String) (factory : FactoryRef) (arguments : List Argument) :
    Instruction :=
  { origin := .factoryCall targetType factory arguments }

/-- The instruction to take a service. -/
def serviceReference (id : String) : Instruction :=
  { origin := .serviceReference id }

/-- The instruction to evaluate an expression. -/
def expression (source : String) : Instruction :=
  { origin := .expression source }

/-- The instruction to take a map of attributes. -/
def plainMap (attributes : Fields Term) : Instruction :=
  { origin := .plainMap attributes }

/-- Adds a method call behind the others. -/
def addCall (instruction : Instruction) (call : Call) : Instruction :=
  { instruction with calls := instruction.calls ++ [call] }

/-- Adds an entry under a tag, with a name as its alias. -/
def withAlias (instruction : Instruction) (tag name : String) : Instruction :=
  let entries := (Fields.get? instruction.tags tag).getD []
  { instruction with
    tags := Fields.insert instruction.tags tag (entries ++ [[("alias", name)]]) }

/-- The factory that is called, if one is. -/
def factory? (instruction : Instruction) : Option FactoryRef :=
  match instruction.origin with
  | .factoryCall _ factory _ => some factory
  | _ => none

/-- The children that are attached, in order. -/
def children (instruction : Instruction) : List Instruction :=
  instruction.calls.filterMap fun call =>
    if call.method = Call.addChildMethod then call.child? else none

end Instruction

end MenuPlan

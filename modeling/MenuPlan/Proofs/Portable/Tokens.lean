/-
# Tokens for both readers

A portable text has the same tokens for both readers, except that the scanner of YAML announces a
name by a token for keys. Where a string is a name is known only to the reader of JSON, so the
tokens are translated along its states.

The moves of that reader are listed once, as a relation, for the proofs that follow it.
-/

import Mathlib.Tactic.SplitIfs
import MenuPlan.Json.Reader
import MenuPlan.Yaml.Token

namespace MenuPlan.Portable

open Json (Frame Reading)

/-- The reading is at the place of a value, which goes to the innermost of these frames. -/
inductive AtValue : Reading → List Frame → Prop where
  | value (around : List Frame) : AtValue (.beforeValue around) around
  | first (around : List Frame) : AtValue (.afterOpenArray around) (.items [] :: around)

/-- The reading is at the place of a name, behind these members. -/
inductive AtName : Reading → Fields Data → List Frame → Prop where
  | first (around : List Frame) : AtName (.afterOpenObject around) [] around
  | next (done : Fields Data) (around : List Frame) : AtName (.beforeName done around) done around

/-- An array may be closed here, with these items, last first. -/
inductive AtItemEnd : Reading → List Data → List Frame → Prop where
  | empty (around : List Frame) : AtItemEnd (.afterOpenArray around) [] around
  | item (done : List Data) (around : List Frame) : AtItemEnd (.afterItem done around) done around

/-- An object may be closed here, with these members. -/
inductive AtMemberEnd : Reading → Fields Data → List Frame → Prop where
  | empty (around : List Frame) : AtMemberEnd (.afterOpenObject around) [] around
  | member (done : Fields Data) (around : List Frame) :
      AtMemberEnd (.afterMember done around) done around

/-- What the reader of JSON can do. -/
inductive Moves : Reading → Json.Token → Reading → Prop where
  | openArray {reading : Reading} {around : List Frame} (atValue : AtValue reading around)
      (fits : around.length < Json.depthLimit) :
      Moves reading .openArray (.afterOpenArray around)
  | openObject {reading : Reading} {around : List Frame} (atValue : AtValue reading around)
      (fits : around.length < Json.depthLimit) :
      Moves reading .openObject (.afterOpenObject around)
  | string {reading : Reading} {around : List Frame} (text : String)
      (atValue : AtValue reading around) :
      Moves reading (.string text) (.deliver (.string text) around)
  | word {reading : Reading} {around : List Frame} {text : List Char} {value : Data}
      (atValue : AtValue reading around) (isScalar : Json.scalar? text = some value) :
      Moves reading (.word text) (.deliver value around)
  | closeArray {reading : Reading} {done : List Data} {around : List Frame}
      (atEnd : AtItemEnd reading done around) :
      Moves reading .closeArray (.deliver (.array done.reverse) around)
  | closeObject {reading : Reading} {done : Fields Data} {around : List Frame}
      (atEnd : AtMemberEnd reading done around) :
      Moves reading .closeObject (.deliver (.object done) around)
  | nextItem (done : List Data) (around : List Frame) :
      Moves (.afterItem done around) .comma (.beforeValue (.items done :: around))
  | nextMember (done : Fields Data) (around : List Frame) :
      Moves (.afterMember done around) .comma (.beforeName done around)
  | name {reading : Reading} {done : Fields Data} {around : List Frame} (text : String)
      (atName : AtName reading done around) :
      Moves reading (.string text) (.beforeColon done text around)
  | colon (done : Fields Data) (text : String) (around : List Frame) :
      Moves (.beforeColon done text around) .colon (.beforeValue (.members done text :: around))

/-- What a value begins with. -/
theorem moves_of_start {reading next : Reading} {around : List Frame} {token : Json.Token}
    (atValue : AtValue reading around) (isStart : Reading.start around token = some next) :
    Moves reading token next := by
  cases token with
  | openArray =>
      rw [Reading.start] at isStart
      split_ifs at isStart with fits
      cases isStart
      exact .openArray atValue fits
  | openObject =>
      rw [Reading.start] at isStart
      split_ifs at isStart with fits
      cases isStart
      exact .openObject atValue fits
  | string text =>
      cases isStart
      exact .string text atValue
  | word text =>
      obtain ⟨value, isScalar, rfl⟩ := Option.map_eq_some_iff.mp isStart
      exact .word atValue isScalar
  | closeArray | closeObject | comma | colon => cases isStart

/-- A step is one of the moves. -/
theorem moves_of_step {reading next : Reading} {token : Json.Token}
    (isStep : reading.step token = some next) : Moves reading token next := by
  unfold Reading.step at isStep
  split at isStep
  case h_1 token around => exact moves_of_start (.value around) isStep
  case h_2 around =>
      cases isStep
      exact .closeArray (.empty around)
  case h_3 token around _ => exact moves_of_start (.first around) isStep
  case h_4 done around =>
      cases isStep
      exact .nextItem done around
  case h_5 done around =>
      cases isStep
      exact .closeArray (.item done around)
  case h_6 around =>
      cases isStep
      exact .closeObject (.empty around)
  case h_7 around text =>
      cases isStep
      exact .name text (.first around)
  case h_8 done around text =>
      cases isStep
      exact .name text (.next done around)
  case h_9 done text around =>
      cases isStep
      exact .colon done text around
  case h_10 done around =>
      cases isStep
      exact .nextMember done around
  case h_11 done around =>
      cases isStep
      exact .closeObject (.member done around)
  case h_12 => cases isStep

/-- How many arrays and objects are open. -/
def depthOf : Reading → Nat
  | .beforeValue around => around.length
  | .afterOpenArray around | .afterItem _ around | .afterOpenObject around
  | .beforeName _ around | .beforeColon _ _ around | .afterMember _ around => around.length + 1
  | .finished _ => 0

/-- Whether a string is a name here. -/
def expectsName : Reading → Bool
  | .afterOpenObject _ | .beforeName _ _ => true
  | _ => false

/-- Whether a colon must follow. -/
def expectsColon : Reading → Bool
  | .beforeColon _ _ _ => true
  | _ => false

/-- A value that has been read leaves as many collections open as there are frames. -/
@[simp] theorem depthOf_deliver (value : Data) (around : List Frame) :
    depthOf (.deliver value around) = around.length := by
  cases around with
  | nil => rfl
  | cons frame around => cases frame <;> rfl

/-- No name follows a value. -/
@[simp] theorem expectsName_deliver (value : Data) (around : List Frame) :
    expectsName (.deliver value around) = false := by
  cases around with
  | nil => rfl
  | cons frame around => cases frame <;> rfl

/-- No colon follows a value. -/
@[simp] theorem expectsColon_deliver (value : Data) (around : List Frame) :
    expectsColon (.deliver value around) = false := by
  cases around with
  | nil => rfl
  | cons frame around => cases frame <;> rfl

/-- At the place of a value no name and no colon is expected. -/
theorem AtValue.isPlace {reading : Reading} {around : List Frame}
    (atValue : AtValue reading around) :
    depthOf reading = around.length ∧ expectsName reading = false ∧
      expectsColon reading = false := by
  cases atValue with
  | value => exact ⟨rfl, rfl, rfl⟩
  | first => exact ⟨rfl, rfl, rfl⟩

/-- At the place of a name, a name is expected. -/
theorem AtName.isPlace {reading : Reading} {done : Fields Data} {around : List Frame}
    (atName : AtName reading done around) :
    depthOf reading = around.length + 1 ∧ expectsName reading = true ∧
      expectsColon reading = false := by
  cases atName with
  | first => exact ⟨rfl, rfl, rfl⟩
  | next => exact ⟨rfl, rfl, rfl⟩

/-- Where an array is closed, no colon is expected. -/
theorem AtItemEnd.isPlace {reading : Reading} {done : List Data} {around : List Frame}
    (atEnd : AtItemEnd reading done around) :
    depthOf reading = around.length + 1 ∧ expectsColon reading = false := by
  cases atEnd with
  | empty => exact ⟨rfl, rfl⟩
  | item => exact ⟨rfl, rfl⟩

/-- Where an object is closed, no colon is expected. -/
theorem AtMemberEnd.isPlace {reading : Reading} {done : Fields Data} {around : List Frame}
    (atEnd : AtMemberEnd reading done around) :
    depthOf reading = around.length + 1 ∧ expectsColon reading = false := by
  cases atEnd with
  | empty => exact ⟨rfl, rfl⟩
  | member => exact ⟨rfl, rfl⟩

/-- The tokens of YAML for a token of JSON, which may be a name. -/
def translate (isName : Bool) : Json.Token → List Yaml.Token
  | .openArray => [.flowSequenceStart]
  | .closeArray => [.flowSequenceEnd]
  | .openObject => [.flowMappingStart]
  | .closeObject => [.flowMappingEnd]
  | .comma => [.flowEntry]
  | .colon => [.value]
  | .string text => if isName then [.key, .scalar text false] else [.scalar text false]
  | .word text => [.scalar (String.ofList text) true]

/-- The tokens of YAML for those of JSON, up to the end of the text. -/
def translateAll : Reading → List Json.Token → List Yaml.Token
  | _, [] => [.streamEnd]
  | reading, token :: rest =>
      translate (expectsName reading) token ++
        (reading.step token).elim [] fun next => translateAll next rest

end MenuPlan.Portable

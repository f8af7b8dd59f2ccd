/-
# Reading JSON text

The value that a text writes, by one pass over its tokens. `Reading` is what has been read so far:
the open arrays and objects, innermost first, and what may come next. Each token moves it one step
or is refused, so the reader is a left fold and reads every token once.

At most 127 arrays and objects may be open at a time. A repeated name keeps its first place and its
last value.
-/

import MenuPlan.Data.Basic
import MenuPlan.Json.Number
import MenuPlan.Json.Token

namespace MenuPlan.Json

/-- How many arrays and objects may lie inside each other. -/
def depthLimit : Nat := 127

/-- An array or object that waits for a value: its items, last first, or its members and the name
that the value belongs to. -/
inductive Frame where
  | items (done : List Data)
  | members (done : Fields Data) (name : String)

/-- What has been read, with the open arrays and objects that surround it. -/
inductive Reading where
  /-- A value must follow. -/
  | beforeValue (around : List Frame)
  /-- An array has just been opened. -/
  | afterOpenArray (around : List Frame)
  /-- An item has been read. -/
  | afterItem (done : List Data) (around : List Frame)
  /-- An object has just been opened. -/
  | afterOpenObject (around : List Frame)
  /-- A comma has been read in an object. -/
  | beforeName (done : Fields Data) (around : List Frame)
  /-- A name has been read. -/
  | beforeColon (done : Fields Data) (name : String) (around : List Frame)
  /-- A member has been read. -/
  | afterMember (done : Fields Data) (around : List Frame)
  /-- The value of the text has been read. -/
  | finished (value : Data)

/-- The value of a word. -/
def scalar? (text : List Char) : Option Data :=
  if text = ['n', 'u', 'l', 'l'] then some .null
  else if text = ['t', 'r', 'u', 'e'] then some (.bool true)
  else if text = ['f', 'a', 'l', 's', 'e'] then some (.bool false)
  else (number? text).map .number

namespace Reading

/-- Hands a value to the innermost open array or object. -/
def deliver (value : Data) : List Frame → Reading
  | [] => finished value
  | .items done :: rest => afterItem (value :: done) rest
  | .members done name :: rest => afterMember (Fields.insert done name value) rest

/-- Reads the first token of a value. -/
def start (around : List Frame) : Token → Option Reading
  | .openArray => if around.length < depthLimit then some (afterOpenArray around) else none
  | .openObject => if around.length < depthLimit then some (afterOpenObject around) else none
  | .string text => some (deliver (.string text) around)
  | .word text => (scalar? text).map fun value => deliver value around
  | _ => none

/-- Reads one token. -/
def step : Reading → Token → Option Reading
  | beforeValue around, token => start around token
  | afterOpenArray around, .closeArray => some (deliver (.array []) around)
  | afterOpenArray around, token => start (.items [] :: around) token
  | afterItem done around, .comma => some (beforeValue (.items done :: around))
  | afterItem done around, .closeArray => some (deliver (.array done.reverse) around)
  | afterOpenObject around, .closeObject => some (deliver (.object []) around)
  | afterOpenObject around, .string text => some (beforeColon [] text around)
  | beforeName done around, .string text => some (beforeColon done text around)
  | beforeColon done text around, .colon => some (beforeValue (.members done text :: around))
  | afterMember done around, .comma => some (beforeName done around)
  | afterMember done around, .closeObject => some (deliver (.object done) around)
  | _, _ => none

/-- The value, once it is complete. -/
def result? : Reading → Option Data
  | finished value => some value
  | _ => none

end Reading

/-- The value that a list of tokens writes. -/
def ofTokens? (tokens : List Token) : Option Data := do
  let reading ← tokens.foldlM Reading.step (Reading.beforeValue [])
  reading.result?

/-- The value that a text writes, if it is JSON text. -/
def read? (text : String) : Option Data := do
  ofTokens? (← Token.ofText? text.toList)

end MenuPlan.Json

/-
# Writing data as JSON text

Two layouts of one notation: `compact` without any blank, and `indented` with one member or item a
line and two blanks a level. Empty arrays and objects are written without a line break in both.
-/

import MenuPlan.Data.Basic
import MenuPlan.Json.Quoted

namespace MenuPlan.Json

/-- Where blanks and line breaks go. -/
inductive Layout where
  | compact
  | indented
deriving DecidableEq

namespace Layout

/-- What stands before an item, a member or a closing bracket at this level. -/
def lineBreak : Layout → Nat → List Char
  | compact, _ => []
  | indented, level => '\n' :: List.replicate (2 * level) ' '

/-- What stands between a name and its value. -/
def colon : Layout → List Char
  | compact => [':']
  | indented => [':', ' ']

end Layout

mutual

/-- The text of a value whose first line is at this level. -/
def write (layout : Layout) (level : Nat) : Data → List Char
  | .null => ['n', 'u', 'l', 'l']
  | .bool true => ['t', 'r', 'u', 'e']
  | .bool false => ['f', 'a', 'l', 's', 'e']
  | .number n => n.text
  | .string s => quoted s
  | .array [] => ['[', ']']
  | .array (item :: rest) =>
      '[' :: (layout.lineBreak (level + 1) ++ write layout (level + 1) item
        ++ writeItems layout (level + 1) rest ++ layout.lineBreak level ++ [']'])
  | .object [] => ['{', '}']
  | .object ((name, value) :: rest) =>
      '{' :: (layout.lineBreak (level + 1) ++ quoted name ++ layout.colon
        ++ write layout (level + 1) value
        ++ writeMembers layout (level + 1) rest ++ layout.lineBreak level ++ ['}'])

/-- The items after the first, each behind a comma. -/
def writeItems (layout : Layout) (level : Nat) : List Data → List Char
  | [] => []
  | item :: rest =>
      ',' :: (layout.lineBreak level ++ write layout level item ++ writeItems layout level rest)

/-- The members after the first, each behind a comma. -/
def writeMembers (layout : Layout) (level : Nat) : List (String × Data) → List Char
  | [] => []
  | (name, value) :: rest =>
      ',' :: (layout.lineBreak level ++ quoted name ++ layout.colon ++ write layout level value
        ++ writeMembers layout level rest)

end

/-- The text of a value on one line, without blanks. -/
def compact (value : Data) : String :=
  String.ofList (write .compact 0 value)

/-- The text of a value with one item or member a line. -/
def indented (value : Data) : String :=
  String.ofList (write .indented 0 value)

end MenuPlan.Json

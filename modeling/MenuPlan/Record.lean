/-
# Records in documents

How values with a fixed set of fields are read from data. A record may be written as an object,
whose members are checked in the order in which they are written, or as an array of its fields in
their declared order. Unknown members are passed over.

`Mismatch` lists what can be wrong with a value, and `Mismatch.message` how it is reported.
-/

import MenuPlan.Data.Basic
import MenuPlan.Text.Literal

namespace MenuPlan

/-- Why data could not be read as a value of some type. -/
inductive Mismatch where
  | wrongType (found : Data) (expected : String)
  | missingField (name : String)
  | unknownField (name : String) (known : List String)
  /-- An array that ends before a field that it must have. -/
  | tooShort (length : Nat) (record : String) (fields : Nat)
  /-- An array with more items than there are fields. -/
  | tooLong (length : Nat)
deriving DecidableEq

namespace Mismatch

/-- What was found in place of the expected value. -/
def describe : Data → String
  | .null => "null"
  | .bool true => "boolean `true`"
  | .bool false => "boolean `false`"
  | .number (.int value _) => s!"integer `{String.ofList (Number.intText value)}`"
  | .number (.real value) => s!"floating point `{String.ofList value.positionalText}`"
  | .string text => s!"string {Text.literal text}"
  | .array _ => "sequence"
  | .object _ => "map"

/-- Names in quotes, joined for a sentence. -/
def alternatives (known : List String) : String :=
  String.intercalate " or " (known.map fun name => s!"`{name}`")

/-- The text of the report. -/
def message : Mismatch → String
  | wrongType found expected => s!"invalid type: {describe found}, expected {expected}"
  | missingField name => s!"missing field `{name}`"
  | unknownField name known => s!"unknown field `{name}`, expected {alternatives known}"
  | tooShort length record fields =>
      s!"invalid length {natText length}, expected {record} with {natText fields} elements"
  | tooLong length => s!"invalid length {natText length}, expected fewer elements in array"

end Mismatch

/-- What the value of a field must be. -/
inductive FieldType where
  | text
  | optionalText
  | map
  | anything
deriving DecidableEq

/-- Whether a field can be left out. -/
inductive Presence where
  | required
  /-- It can be left out of an object, but not of an array that is too short. -/
  | optional
  /-- It can be left out everywhere. -/
  | defaulted
deriving DecidableEq

/-- A field of a record. -/
structure Field where
  name : String
  type : FieldType
  presence : Presence

/-- The fields of a record in their declared order, and how the record is called in messages. -/
structure RecordType where
  title : String
  fields : List Field

/-- The members of a map. -/
def Data.map? : Data → Except Mismatch (Fields Data)
  | .object members => .ok members
  | other => .error (.wrongType other "a map")

/-- The text of a string. -/
def Data.text? : Data → Except Mismatch String
  | .string text => .ok text
  | other => .error (.wrongType other "a string")

/-- The text of a string, where null stands for none. -/
def Data.optionalText? : Data → Except Mismatch (Option String)
  | .null => .ok none
  | other => some <$> other.text?

namespace FieldType

/-- Checks the value of a field. -/
def check : FieldType → Data → Except Mismatch Unit
  | text, value => discard value.text?
  | optionalText, value => discard value.optionalText?
  | map, value => discard value.map?
  | anything, _ => .ok ()

end FieldType

namespace RecordType

variable (type : RecordType)

/-- The field with a name. -/
def field? (name : String) : Option Field :=
  type.fields.find? fun field => field.name = name

/-- Checks the members of an object, in the order in which they are written. -/
def checkMembers (members : Fields Data) : Except Mismatch Unit :=
  members.forM fun (name, value) =>
    match type.field? name with
    | some field => field.type.check value
    | none => .ok ()

/-- Checks that no member is missing, in the order of declaration. -/
def checkPresence (members : Fields Data) : Except Mismatch Unit :=
  type.fields.forM fun field =>
    if field.presence = .required ∧ (Fields.get? members field.name).isNone then
      .error (.missingField field.name)
    else .ok ()

/-- Gives the items of an array the names of the fields. `index` counts the fields already read. -/
def nameItems (index : Nat) : List Field → List Data → Except Mismatch (Fields Data)
  | field :: fields, item :: items => do
      field.type.check item
      return (field.name, item) :: (← nameItems (index + 1) fields items)
  | field :: fields, [] =>
      if field.presence = .defaulted then nameItems (index + 1) fields []
      else .error (.tooShort index type.title type.fields.length)
  | [], items =>
      if items.isEmpty then .ok []
      else .error (.tooLong (index + items.length))

/-- The members of a record, whose values have the types of the fields. -/
def read : Data → Except Mismatch (Fields Data)
  | .object members => do
      type.checkMembers members
      type.checkPresence members
      return members
  | .array items => type.nameItems 0 type.fields items
  | other => .error (.wrongType other type.title)

end RecordType

/-- The text under a name that has been checked to be a string. -/
def Fields.textAt (members : Fields Data) (name : String) : String :=
  match Fields.get? members name with
  | some (.string text) => text
  | _ => ""

/-- The text under a name that has been checked to be a string, null or absent. -/
def Fields.optionalTextAt (members : Fields Data) (name : String) : Option String :=
  match Fields.get? members name with
  | some (.string text) => some text
  | _ => none

/-- The members under a name that has been checked to be a map or absent. -/
def Fields.mapAt (members : Fields Data) (name : String) : Fields Data :=
  match Fields.get? members name with
  | some (.object entries) => entries
  | _ => []

/-- The value under a name, where null stands for none. -/
def Fields.valueAt (members : Fields Data) (name : String) : Option Data :=
  (Fields.get? members name).filter (· ≠ .null)

end MenuPlan

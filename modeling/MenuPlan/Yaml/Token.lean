/-
# Tokens of a YAML text

The tokens that a text is cut into. Indentation has become tokens as well: block collections are
opened and closed explicitly, so what follows reads a list of tokens without looking at columns.
-/

namespace MenuPlan.Yaml

/-- A token of a YAML text. -/
inductive Token where
  | versionDirective (major minor : Nat)
  | tagDirective (handle : String) (expansion : List UInt8)
  | documentStart
  | documentEnd
  | blockSequenceStart
  | blockMappingStart
  | blockEnd
  | flowSequenceStart
  | flowSequenceEnd
  | flowMappingStart
  | flowMappingEnd
  | blockEntry
  | flowEntry
  | key
  | value
  | aliasOf (name : String)
  | anchor (name : String)
  /-- A tag: a handle, empty for a tag that is written out, and the bytes after it. -/
  | tag (handle : String) (suffix : List UInt8)
  /-- A scalar, and whether it was written without quotes or block marks. -/
  | scalar (text : String) (plain : Bool)
  | streamEnd
deriving DecidableEq, Repr

end MenuPlan.Yaml

/-
# Reading a YAML text

The value of a document. Aliases are replaced by what they refer to, which may repeat large parts
and may even contain itself; two limits keep this finite. Arrays and objects may lie at most 128
deep, which bounds the recursion here, and the number of aliases that are followed may be at most a
hundred times the size of the document.

The text of a scalar key is the name of the member whatever the scalar would stand for as a value;
other keys are refused. A repeated name keeps its first place and its last value. A text without a
document is null, one with several documents is refused.
-/

import MenuPlan.Yaml.Node.OfTokens
import MenuPlan.Yaml.Scalar
import MenuPlan.Yaml.Token.Scan

namespace MenuPlan.Yaml

/-- How many arrays and objects may lie inside each other. -/
def depthLimit : Nat := 128

/-- What aliases refer to, and how many of them may be followed. -/
structure Aliases where
  targets : List (Nat × Node)
  limit : Nat

namespace Aliases

/-- The aliases of a document. Of two nodes with one number, the later one counts. -/
def ofNode (root : Node) : Aliases where
  targets := (Node.anchored root).reverse
  limit := root.size * 100

/-- The node that a node stands for, counting the aliases followed. -/
def follow (aliases : Aliases) : Node → StateT Nat Option Node
  | .aliasOf anchor => do
      let followed ← get
      if followed < aliases.limit then
        set (followed + 1)
        (aliases.targets.lookup anchor : Option Node)
      else failure
  | node => pure node

end Aliases

/-- Whether a collection may carry this tag. -/
def isCollectionTag (tag : Option Tag) : Bool :=
  tag ≠ some .application

/-- The name that a key writes. -/
def name (aliases : Aliases) (key : Node) : StateT Nat Option String := do
  match ← aliases.follow key with
  | .scalar _ text _ => return text
  | _ => failure

/-- The value of a node that may hold arrays and objects of the given depth. -/
def value (aliases : Aliases) : Nat → Node → StateT Nat Option Data
  | 0, node => do
      match ← aliases.follow node with
      | .scalar properties text plain => (scalarValue? properties.tag text plain : Option Data)
      | _ => failure
  | depth + 1, node => do
      match ← aliases.follow node with
      | .scalar properties text plain => (scalarValue? properties.tag text plain : Option Data)
      | .sequence properties items =>
          if isCollectionTag properties.tag then
            return .array (← items.mapM (value aliases depth))
          else failure
      | .mapping properties entries =>
          if isCollectionTag properties.tag then
            let members ← entries.mapM fun (key, node) => do
              let name ← name aliases key
              return (name, ← value aliases depth node)
            return Data.ofMembers members
          else failure
      | .aliasOf _ => failure

/-- The value of a document. -/
def ofNode? (root : Node) : Option Data :=
  (value (Aliases.ofNode root) depthLimit root).run' 0

/-- The value that a text writes, if it is a YAML text. -/
def read? (text : String) : Option Data := do
  match ← Node.ofTokens? (← Token.ofText? text) with
  | none => some .null
  | some root => ofNode? root

end MenuPlan.Yaml

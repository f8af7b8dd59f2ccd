/-
# From tokens to nodes

The node that a list of tokens writes, by one pass over the tokens. `Reading` is the state between
two tokens: the open collections, innermost first, each with the slot that is being filled, and
whether a node is expected there (`awaiting`), a separator (`settled`), or the beginning of a flow
entry (`opened`).

A value may be omitted. Then the token that shows this belongs to what follows the omitted value, so
it is read again after the empty node has been put into its slot; the functions `afterEntry`,
`afterKey` and `afterNode` are ordered such that each reads a token again only through the one
before it.

Anchors are numbered as they are met: an anchor's number is how many different names came before it.
A name that is defined again gets a new number this way, which the next new name may share; the node
that begins last is then the one that aliases of this number mean.
-/

import MenuPlan.Fields
import MenuPlan.Yaml.Node

namespace MenuPlan.Yaml

/-- A collection that is being read, or the document around it, with the slot that is being filled.
Items and entries come last first. -/
inductive Frame where
  | root
  | blockItem (properties : Properties) (items : List Node)
  /-- An item of a block sequence that stands at the column of its mapping key. -/
  | indentlessItem (properties : Properties) (items : List Node)
  | blockKey (properties : Properties) (entries : List (Node × Node))
  | blockValue (properties : Properties) (entries : List (Node × Node)) (key : Node)
  | flowItem (properties : Properties) (items : List Node)
  /-- The key of a single pair that stands for a mapping among the items. -/
  | pairKey (properties : Properties) (items : List Node)
  | pairValue (properties : Properties) (items : List Node) (key : Node)
  /-- A key of a flow mapping, and whether it has been announced by a key token. -/
  | flowKey (properties : Properties) (entries : List (Node × Node)) (announced : Bool)
  | flowValue (properties : Properties) (entries : List (Node × Node)) (key : Node)

/-- The state between two tokens. -/
inductive Reading where
  /-- Nothing has been read. -/
  | start
  /-- Directives have been read. -/
  | prologue (hasVersion : Bool)
  /-- A document start has been read. -/
  | content
  /-- A node must follow whose properties have been read so far. -/
  | awaiting (properties : Properties) (around : List Frame)
  /-- A node has been read. -/
  | settled (around : List Frame)
  /-- A flow collection has been opened or a comma has been read in it. -/
  | opened (around : List Frame)
  /-- The document's node has been read. -/
  | epilogue (node : Node)
  /-- The text has ended, with its node if there was a document. -/
  | finished (node : Option Node)

/-- The names and handles that have been declared. -/
structure Declarations where
  /-- The numbers of the anchors by name. -/
  anchors : Fields Nat := []
  /-- What tag handles stand for. -/
  handles : Fields (List UInt8) := []

namespace Declarations

/-- The bytes of an ASCII string. -/
def bytes (text : String) : List UInt8 :=
  text.toList.map fun c => c.toNat.toUInt8

/-- The handles that need no declaration. -/
def standardHandles : Fields (List UInt8) :=
  [("!", bytes "!"), ("!!", bytes Tag.coreNamespace)]

/-- The bytes of a tag. An empty handle needs no declaration. -/
def tagBytes? (d : Declarations) (handle : String) (suffix : List UInt8) : Option (List UInt8) :=
  if handle = "" then some suffix
  else ((Fields.get? d.handles handle).or (Fields.get? standardHandles handle)).map (· ++ suffix)

end Declarations

namespace Reading

/-- Puts a node into the innermost slot. -/
def deliver (node : Node) : List Frame → Reading
  | [] | .root :: _ => epilogue node
  | .blockItem properties items :: around =>
      settled (.blockItem properties (node :: items) :: around)
  | .indentlessItem properties items :: around =>
      settled (.indentlessItem properties (node :: items) :: around)
  | .blockKey properties entries :: around =>
      settled (.blockValue properties entries node :: around)
  | .blockValue properties entries key :: around =>
      settled (.blockKey properties ((key, node) :: entries) :: around)
  | .flowItem properties items :: around =>
      settled (.flowItem properties (node :: items) :: around)
  | .pairKey properties items :: around =>
      settled (.pairValue properties items node :: around)
  | .pairValue properties items key :: around =>
      settled (.flowItem properties (.mapping {} [(key, node)] :: items) :: around)
  | .flowKey properties entries true :: around =>
      settled (.flowValue properties entries node :: around)
  | .flowKey properties entries false :: around =>
      settled (.flowKey properties ((node, .empty) :: entries) false :: around)
  | .flowValue properties entries key :: around =>
      settled (.flowKey properties ((key, node) :: entries) false :: around)

/-- The sequence with these items, last first. -/
def sequence (properties : Properties) (items : List Node) : Node :=
  .sequence properties items.reverse

/-- The mapping with these entries, last first. -/
def mapping (properties : Properties) (entries : List (Node × Node)) : Node :=
  .mapping properties entries.reverse

/-- Reads a token after an item or an entry. -/
def afterEntry : List Frame → Token → Option Reading
  | around@(.blockItem _ _ :: _), .blockEntry => some (awaiting {} around)
  | .blockItem properties items :: around, .blockEnd =>
      some (deliver (sequence properties items) around)
  | around@(.blockKey _ _ :: _), .key => some (awaiting {} around)
  | .blockKey properties entries :: around, .blockEnd =>
      some (deliver (mapping properties entries) around)
  | around@(.flowItem _ _ :: _), .flowEntry => some (opened around)
  | .flowItem properties items :: around, .flowSequenceEnd =>
      some (deliver (sequence properties items) around)
  | around@(.flowKey _ _ _ :: _), .flowEntry => some (opened around)
  | .flowKey properties entries _ :: around, .flowMappingEnd =>
      some (deliver (mapping properties entries) around)
  | _, _ => none

/-- Reads a token after a node that may have been a key. Without a value token, its value has been
omitted. -/
def afterKey : List Frame → Token → Option Reading
  | around@(.blockValue _ _ _ :: _), .value => some (awaiting {} around)
  | .blockValue properties entries key :: around, token =>
      afterEntry (.blockKey properties ((key, .empty) :: entries) :: around) token
  | around@(.pairValue _ _ _ :: _), .value => some (awaiting {} around)
  | .pairValue properties items key :: around, token =>
      afterEntry (.flowItem properties (.mapping {} [(key, .empty)] :: items) :: around) token
  | around@(.flowValue _ _ _ :: _), .value => some (awaiting {} around)
  | .flowValue properties entries key :: around, token =>
      afterEntry (.flowKey properties ((key, .empty) :: entries) false :: around) token
  | around, token => afterEntry around token

/-- Reads a token after a node. A sequence at the column of its key ends with any token that does
not begin an item. -/
def afterNode : List Frame → Token → Option Reading
  | around@(.indentlessItem _ _ :: _), .blockEntry => some (awaiting {} around)
  | .indentlessItem properties items :: around, token =>
      match deliver (sequence properties items) around with
      | settled around => afterKey around token
      | _ => none
  | around, token => afterKey around token

/-- Reads a token behind the node of the document. -/
def afterDocument (node : Node) : Token → Option Reading
  | .documentEnd => some (epilogue node)
  | .streamEnd => some (finished (some node))
  | _ => none

/-- Puts a node into its slot and reads the token behind it. -/
def deliverThen (node : Node) (around : List Frame) (token : Token) : Option Reading :=
  match deliver node around with
  | settled around => afterNode around token
  | epilogue node => afterDocument node token
  | _ => none

/-- Whether a token at the place of a node shows that the node has been omitted. -/
def omitted : Frame → Token → Bool
  | .blockItem _ _, token => token = .blockEntry || token = .blockEnd
  | .indentlessItem _ _, token =>
      token = .blockEntry || token = .key || token = .value || token = .blockEnd
  | .blockKey _ _, token | .blockValue _ _ _, token =>
      token = .key || token = .value || token = .blockEnd
  | .pairKey _ _, token => token = .value || token = .flowEntry || token = .flowSequenceEnd
  | .pairValue _ _ _, token => token = .flowEntry || token = .flowSequenceEnd
  | .flowKey _ _ true, token => token = .value || token = .flowEntry || token = .flowMappingEnd
  | .flowValue _ _ _, token => token = .flowEntry || token = .flowMappingEnd
  | .root, _ | .flowItem _ _, _ | .flowKey _ _ false, _ => false

/-- Whether a block collection may stand in this slot. -/
def allowsBlock : Frame → Bool
  | .root | .blockItem _ _ | .indentlessItem _ _ | .blockKey _ _ | .blockValue _ _ _ => true
  | _ => false

/-- Whether a block sequence without indentation may stand in this slot. -/
def allowsIndentless : Frame → Bool
  | .blockKey _ _ | .blockValue _ _ _ => true
  | _ => false

/-- Reads a token of a node's content, or shows that properties stand alone. -/
def content? (properties : Properties) (frame : Frame) (around : List Frame) (token : Token) :
    Option Reading :=
  let inner := frame :: around
  match token with
  | .scalar text plain => some (deliver (.scalar properties text plain) inner)
  | .flowSequenceStart => some (opened (.flowItem properties [] :: inner))
  | .flowMappingStart => some (opened (.flowKey properties [] false :: inner))
  | .blockSequenceStart =>
      if allowsBlock frame then some (settled (.blockItem properties [] :: inner)) else none
  | .blockMappingStart =>
      if allowsBlock frame then some (settled (.blockKey properties [] :: inner)) else none
  | token =>
      if allowsIndentless frame && token = .blockEntry then
        some (awaiting {} (.indentlessItem properties [] :: inner))
      else if properties = {} then none
      else deliverThen (.scalar properties "" true) inner token

/-- Reads a token where a node is expected. The token behind an omitted key of a single pair is
passed over. -/
def node? (d : Declarations) (properties : Properties) (around : List Frame) (token : Token) :
    Option (Reading × Declarations) :=
  match around with
  | [] => none
  | frame :: rest =>
      if properties = {} && omitted frame token then
        match frame with
        | .pairKey _ _ => some (deliver .empty around, d)
        | _ => (deliverThen .empty around token).map (·, d)
      else match token with
        | .aliasOf name =>
            if properties = {} then
              (Fields.get? d.anchors name).map fun anchor => (deliver (.aliasOf anchor) around, d)
            else none
        | .anchor name =>
            if properties.anchor.isSome then none
            else
              let anchor := d.anchors.length
              some (awaiting { properties with anchor := some anchor } around,
                { d with anchors := Fields.insert d.anchors name anchor })
        | .tag handle suffix =>
            if properties.tag.isSome then none
            else (d.tagBytes? handle suffix).map fun bytes =>
              (awaiting { properties with tag := some (.ofBytes bytes) } around, d)
        | token => (content? properties frame rest token).map (·, d)

/-- Reads the first token of a flow entry. -/
def opened? (d : Declarations) (around : List Frame) (token : Token) :
    Option (Reading × Declarations) :=
  match around, token with
  | .flowItem properties items :: around, .flowSequenceEnd =>
      some (deliver (sequence properties items) around, d)
  | .flowItem properties items :: around, .key =>
      some (awaiting {} (.pairKey properties items :: around), d)
  | .flowKey properties entries _ :: around, .flowMappingEnd =>
      some (deliver (mapping properties entries) around, d)
  | .flowKey properties entries _ :: around, .key =>
      some (awaiting {} (.flowKey properties entries true :: around), d)
  | around, token => node? d {} around token

/-- Reads a directive. A document has at most one version, which must be 1.1 or 1.2, and declares
each handle at most once. -/
def directive? (d : Declarations) (hasVersion : Bool) : Token → Option (Reading × Declarations)
  | .versionDirective major minor =>
      if hasVersion || major ≠ 1 || (minor ≠ 1 && minor ≠ 2) then none
      else some (prologue true, d)
  | .tagDirective handle expansion =>
      if (Fields.get? d.handles handle).isSome then none
      else
        some (prologue hasVersion, { d with handles := Fields.insert d.handles handle expansion })
  | .documentStart => some (content, d)
  | _ => none

/-- Reads a token. -/
def step : Reading × Declarations → Token → Option (Reading × Declarations)
  | (start, d), token =>
      match token with
      | .streamEnd => some (finished none, d)
      | .versionDirective _ _ | .tagDirective _ _ | .documentStart => directive? d false token
      | _ => node? d {} [.root] token
  | (prologue hasVersion, d), token => directive? d hasVersion token
  | (content, d), token =>
      match token with
      | .versionDirective _ _ | .tagDirective _ _ | .documentStart => none
      | .documentEnd | .streamEnd => (afterDocument .empty token).map (·, d)
      | _ => node? d {} [.root] token
  | (awaiting properties around, d), token => node? d properties around token
  | (settled around, d), token => (afterNode around token).map (·, d)
  | (opened around, d), token => opened? d around token
  | (epilogue node, d), token => (afterDocument node token).map (·, d)
  | (finished _, _), _ => none

end Reading

/-- The node that a list of tokens writes; none inside when there is no document at all. -/
def Node.ofTokens? (tokens : List Token) : Option (Option Node) := do
  match ← tokens.foldlM Reading.step (Reading.start, {}) with
  | (.finished node, _) => some node
  | _ => none

end MenuPlan.Yaml

/-
# Nodes of portable texts

The translated tokens write a node that has the value which the reader of JSON finds. Both readers
keep the open collections on a stack: an array is a sequence in a flow collection, and an object
that waits for the value of a member is a mapping behind a key (`Matches`). What is in the frames
has been read alike, so that between two tokens the two readings correspond (`Corresponds`).

There are neither anchors nor tags in a portable text, so that a value depends on no alias. YAML
allows one collection more than JSON inside each other.
-/

import Mathlib.Data.List.Forall2
import MenuPlan.Proofs.Portable.Numerals
import MenuPlan.Proofs.Portable.Tokens
import MenuPlan.Yaml.Reader

namespace MenuPlan.Portable

open Yaml (Node)

/-- The node has this value, whatever aliases there are, when collections of this depth are allowed
in it. -/
def HasValue (depth : Nat) (node : Node) (value : Data) : Prop :=
  ∀ aliases followed, (Yaml.value aliases depth node).run followed = some (value, followed)

/-- The entry has a name for its key, and a value. -/
def HasMember (depth : Nat) (entry : Node × Node) (member : String × Data) : Prop :=
  entry.1 = .scalar {} member.1 false ∧ HasValue depth entry.2 member.2

/-- A scalar has its value at any depth. -/
theorem hasValue_scalar (depth : Nat) {text : String} {plain : Bool} {value : Data}
    (isValue : Yaml.scalarValue? none text plain = some value) :
    HasValue depth (.scalar {} text plain) value := by
  intro aliases followed
  cases depth with
  | zero =>
      rw [Yaml.value]
      simp [Yaml.Aliases.follow, isValue]
  | succ depth =>
      rw [Yaml.value]
      simp [Yaml.Aliases.follow, isValue]

/-- A string has itself as its value. -/
theorem hasValue_string (depth : Nat) (text : String) :
    HasValue depth (.scalar {} text false) (.string text) :=
  hasValue_scalar depth rfl

/-- A pass over a list whose steps do not touch the state. -/
theorem run_mapM {α β : Type} {step : α → StateT Nat Option β} {items : List α} {results : List β}
    {followed : Nat}
    (each : List.Forall₂ (fun item result => (step item).run followed = some (result, followed))
      items results) : (items.mapM step).run followed = some (results, followed) := by
  induction each with
  | nil => rfl
  | cons first _ ih =>
      rw [List.mapM_cons]
      simp only [StateT.run_bind, first, ih, Option.bind_eq_bind, Option.bind_some, StateT.run_pure,
        Option.pure_def]

/-- A sequence has the values of its items. -/
theorem hasValue_sequence {depth : Nat} {items : List Node} {values : List Data}
    (each : List.Forall₂ (HasValue depth) items values) :
    HasValue (depth + 1) (.sequence {} items) (.array values) := by
  intro aliases followed
  have items := run_mapM (each.imp fun _ _ hasValue => hasValue aliases followed)
  rw [Yaml.value]
  simp [Yaml.Aliases.follow, Yaml.isCollectionTag, items]

/-- A mapping has the members of its entries. -/
theorem hasValue_mapping {depth : Nat} {entries : List (Node × Node)}
    {members : List (String × Data)} (each : List.Forall₂ (HasMember depth) entries members) :
    HasValue (depth + 1) (.mapping {} entries) (Data.ofMembers members) := by
  intro aliases followed
  have isMember : ∀ entry member, HasMember depth entry member →
      StateT.run (do
        let name ← Yaml.name aliases entry.1
        return (name, ← Yaml.value aliases depth entry.2)) followed = some (member, followed) := by
    intro entry member hasMember
    simp [hasMember.1, Yaml.name, Yaml.Aliases.follow, hasMember.2 aliases followed]
  have areMembers := run_mapM (each.imp isMember)
  have isCollection : Yaml.isCollectionTag none = true := rfl
  rw [Yaml.value]
  simp only [Yaml.Aliases.follow, pure_bind]
  rw [if_pos isCollection, StateT.run_bind, areMembers]
  rfl

/-- The depth that is allowed in a value with these frames around it. -/
def depthIn (around : List Json.Frame) : Nat :=
  Yaml.depthLimit - around.length

/-- The entries, last first, have these members. -/
def HaveMembers (depth : Nat) (entries : List (Node × Node)) (done : Fields Data) : Prop :=
  ∃ members, List.Forall₂ (HasMember depth) entries members ∧
    done = Fields.ofEntries members.reverse

/-- No member has been read. -/
theorem haveMembers_nil (depth : Nat) : HaveMembers depth [] [] :=
  ⟨[], .nil, rfl⟩

/-- Another member has been read. -/
theorem HaveMembers.cons {depth : Nat} {entries : List (Node × Node)} {done : Fields Data}
    (haveMembers : HaveMembers depth entries done) (name : String) {node : Node} {value : Data}
    (hasValue : HasValue depth node value) :
    HaveMembers depth ((.scalar {} name false, node) :: entries)
      (Fields.insert done name value) := by
  obtain ⟨members, each, rfl⟩ := haveMembers
  refine ⟨(name, value) :: members, .cons ⟨rfl, hasValue⟩ each, ?_⟩
  rw [List.reverse_cons, Fields.ofEntries, Fields.ofEntries, Fields.overlay, Fields.overlay,
    List.foldl_append]
  rfl

/-- The open collections of both readers. -/
inductive Matches : List Json.Frame → List Yaml.Frame → Prop where
  | root : Matches [] [.root]
  | items {done : List Data} {items : List Node} {around : List Json.Frame}
      {frames : List Yaml.Frame} (fits : around.length < Json.depthLimit)
      (each : List.Forall₂ (HasValue (depthIn (.items done :: around))) items done)
      (outer : Matches around frames) :
      Matches (.items done :: around) (.flowItem {} items :: frames)
  | members {done : Fields Data} {name : String} {entries : List (Node × Node)}
      {around : List Json.Frame} {frames : List Yaml.Frame}
      (fits : around.length < Json.depthLimit)
      (each : HaveMembers (depthIn (.members done name :: around)) entries done)
      (outer : Matches around frames) :
      Matches (.members done name :: around)
        (.flowValue {} entries (.scalar {} name false) :: frames)

/-- Between two tokens both readers have read the same. -/
inductive Corresponds : Json.Reading → Yaml.Reading → Prop where
  | start : Corresponds (.beforeValue []) .start
  | beforeItem {done : List Data} {around : List Json.Frame} {frames : List Yaml.Frame}
      (same : Matches (.items done :: around) frames) :
      Corresponds (.beforeValue (.items done :: around)) (.opened frames)
  | beforeMember {done : Fields Data} {name : String} {around : List Json.Frame}
      {frames : List Yaml.Frame} (same : Matches (.members done name :: around) frames) :
      Corresponds (.beforeValue (.members done name :: around)) (.awaiting {} frames)
  | afterOpenArray {around : List Json.Frame} {frames : List Yaml.Frame}
      (same : Matches (.items [] :: around) frames) :
      Corresponds (.afterOpenArray around) (.opened frames)
  | afterItem {done : List Data} {around : List Json.Frame} {frames : List Yaml.Frame}
      (same : Matches (.items done :: around) frames) :
      Corresponds (.afterItem done around) (.settled frames)
  | afterOpenObject {around : List Json.Frame} {frames : List Yaml.Frame}
      (fits : around.length < Json.depthLimit) (outer : Matches around frames) :
      Corresponds (.afterOpenObject around) (.opened (.flowKey {} [] false :: frames))
  | beforeName {done : Fields Data} {entries : List (Node × Node)} {around : List Json.Frame}
      {frames : List Yaml.Frame} (fits : around.length < Json.depthLimit)
      (each : HaveMembers (depthIn around - 1) entries done) (outer : Matches around frames) :
      Corresponds (.beforeName done around) (.opened (.flowKey {} entries false :: frames))
  | beforeColon {done : Fields Data} {name : String} {around : List Json.Frame}
      {frames : List Yaml.Frame} (same : Matches (.members done name :: around) frames) :
      Corresponds (.beforeColon done name around) (.settled frames)
  | afterMember {done : Fields Data} {entries : List (Node × Node)} {around : List Json.Frame}
      {frames : List Yaml.Frame} (fits : around.length < Json.depthLimit)
      (each : HaveMembers (depthIn around - 1) entries done) (outer : Matches around frames) :
      Corresponds (.afterMember done around) (.settled (.flowKey {} entries false :: frames))
  | finished {node : Node} {value : Data} (hasValue : HasValue Yaml.depthLimit node value) :
      Corresponds (.finished value) (.epilogue node)

variable {around : List Json.Frame} {frames : List Yaml.Frame}

/-- A value and its node go into corresponding slots. -/
theorem Matches.deliver (same : Matches around frames) {node : Node} {value : Data}
    (hasValue : HasValue (depthIn around) node value) :
    Corresponds (.deliver value around) (.deliver node frames) := by
  cases same with
  | root => exact .finished hasValue
  | items fits each outer => exact .afterItem (.items fits (.cons hasValue each) outer)
  | @members _ name _ _ _ fits each outer => exact .afterMember fits (each.cons name hasValue) outer

/-- The tokens that begin a value. -/
def BeginsValue : Yaml.Token → Prop
  | .scalar _ _ | .flowSequenceStart | .flowMappingStart => True
  | _ => False

/-- At the place of a value both readers read one. -/
theorem Corresponds.atValue {reading : Json.Reading} {state : Yaml.Reading}
    (corresponds : Corresponds reading state) (atValue : AtValue reading around) :
    ∃ frame frames, Matches around (frame :: frames) ∧ ∀ token, BeginsValue token →
      Yaml.Reading.step (state, {}) token =
        (Yaml.Reading.content? {} frame frames token).map (·, {}) := by
  cases corresponds with
  | start =>
      cases atValue
      refine ⟨_, _, .root, fun token begins => ?_⟩
      cases token with
      | scalar | flowSequenceStart | flowMappingStart => rfl
      | _ => exact begins.elim
  | beforeItem same | afterOpenArray same =>
      cases atValue
      cases same with
      | items fits each outer =>
          refine ⟨_, _, .items fits each outer, fun token begins => ?_⟩
          cases token with
          | scalar | flowSequenceStart | flowMappingStart => rfl
          | _ => exact begins.elim
  | beforeMember same =>
      cases atValue
      cases same with
      | members fits each outer =>
          refine ⟨_, _, .members fits each outer, fun token begins => ?_⟩
          cases token with
          | scalar | flowSequenceStart | flowMappingStart => rfl
          | _ => exact begins.elim
  | afterItem | afterOpenObject | beforeName | beforeColon | afterMember | finished => cases atValue

/-- At the place of a name, YAML is at the place of a key. -/
theorem Corresponds.atName {reading : Json.Reading} {state : Yaml.Reading} {done : Fields Data}
    (corresponds : Corresponds reading state) (atName : AtName reading done around) :
    ∃ entries frames, state = .opened (.flowKey {} entries false :: frames) ∧
      around.length < Json.depthLimit ∧ HaveMembers (depthIn around - 1) entries done ∧
      Matches around frames := by
  cases corresponds with
  | afterOpenObject fits outer =>
      cases atName
      exact ⟨[], _, rfl, fits, haveMembers_nil _, outer⟩
  | beforeName fits each outer =>
      cases atName
      exact ⟨_, _, rfl, fits, each, outer⟩
  | _ => cases atName

/-- Where an array can be closed, so can a sequence. -/
theorem Corresponds.atItemEnd {reading : Json.Reading} {state : Yaml.Reading} {done : List Data}
    (corresponds : Corresponds reading state) (atEnd : AtItemEnd reading done around) :
    ∃ items frames, around.length < Json.depthLimit ∧
      List.Forall₂ (HasValue (depthIn around - 1)) items done ∧ Matches around frames ∧
      Yaml.Reading.step (state, {}) .flowSequenceEnd =
        some (.deliver (.sequence {} items.reverse) frames, {}) := by
  cases corresponds with
  | afterOpenArray same | afterItem same =>
      cases atEnd
      cases same with
      | items fits each outer => exact ⟨_, _, fits, each, outer, rfl⟩
  | _ => cases atEnd

/-- Where an object can be closed, so can a mapping. -/
theorem Corresponds.atMemberEnd {reading : Json.Reading} {state : Yaml.Reading}
    {done : Fields Data} (corresponds : Corresponds reading state)
    (atEnd : AtMemberEnd reading done around) :
    ∃ entries frames, around.length < Json.depthLimit ∧
      HaveMembers (depthIn around - 1) entries done ∧ Matches around frames ∧
      Yaml.Reading.step (state, {}) .flowMappingEnd =
        some (.deliver (.mapping {} entries.reverse) frames, {}) := by
  cases corresponds with
  | afterOpenObject fits outer =>
      cases atEnd
      exact ⟨_, _, fits, haveMembers_nil _, outer, rfl⟩
  | afterMember fits each outer =>
      cases atEnd
      exact ⟨_, _, fits, each, outer, rfl⟩
  | _ => cases atEnd

/-- A collection can be opened inside these frames. -/
theorem depthIn_eq (fits : around.length < Json.depthLimit) :
    depthIn around = depthIn around - 1 + 1 := by
  rw [depthIn, Yaml.depthLimit]
  rw [Json.depthLimit] at fits
  omega

/-- A move of the reader of JSON is made by that of YAML with the translated tokens. -/
theorem Corresponds.step {reading next : Json.Reading} {state : Yaml.Reading} {token : Json.Token}
    (corresponds : Corresponds reading state) (moves : Moves reading token next)
    (isWord : ∀ text, token = .word text → SpellsWord text) :
    ∃ later, (translate (expectsName reading) token).foldlM Yaml.Reading.step (state, {}) =
        some (later, {}) ∧ Corresponds next later := by
  cases moves with
  | openArray atValue fits =>
      obtain ⟨frame, frames, same, steps⟩ := corresponds.atValue atValue
      refine ⟨_, ?_, .afterOpenArray (.items fits .nil same)⟩
      rw [translate, List.foldlM_cons, steps .flowSequenceStart trivial]
      rfl
  | openObject atValue fits =>
      obtain ⟨frame, frames, same, steps⟩ := corresponds.atValue atValue
      refine ⟨_, ?_, .afterOpenObject fits same⟩
      rw [translate, List.foldlM_cons, steps .flowMappingStart trivial]
      rfl
  | string text atValue =>
      obtain ⟨frame, frames, same, steps⟩ := corresponds.atValue atValue
      refine ⟨_, ?_, same.deliver (hasValue_string _ text)⟩
      rw [atValue.isPlace.2.1, translate, if_neg Bool.false_ne_true, List.foldlM_cons,
        steps (.scalar text false) trivial]
      rfl
  | @word _ _ text value atValue isScalar =>
      obtain ⟨frame, frames, same, steps⟩ := corresponds.atValue atValue
      have isValue : Yaml.scalarValue? none (String.ofList text) true = some value :=
        (isWord text rfl).plainValue? isScalar
      refine ⟨_, ?_, same.deliver (hasValue_scalar _ isValue)⟩
      rw [translate, List.foldlM_cons, steps (.scalar (String.ofList text) true) trivial]
      rfl
  | @closeArray _ done _ atEnd =>
      obtain ⟨items, frames, fits, each, outer, isStep⟩ := corresponds.atItemEnd atEnd
      have hasValue := hasValue_sequence (List.forall₂_reverse_iff.mpr each)
      rw [← depthIn_eq fits] at hasValue
      refine ⟨_, ?_, outer.deliver hasValue⟩
      rw [translate, List.foldlM_cons, isStep]
      rfl
  | @closeObject _ done _ atEnd =>
      obtain ⟨entries, frames, fits, ⟨members, each, rfl⟩, outer, isStep⟩ :=
        corresponds.atMemberEnd atEnd
      have hasValue := hasValue_mapping (List.forall₂_reverse_iff.mpr each)
      rw [← depthIn_eq fits] at hasValue
      refine ⟨_, ?_, outer.deliver hasValue⟩
      rw [translate, List.foldlM_cons, isStep]
      rfl
  | nextItem done around =>
      cases corresponds with
      | afterItem same =>
          cases same with
          | items fits each outer => exact ⟨_, rfl, .beforeItem (.items fits each outer)⟩
  | nextMember done around =>
      cases corresponds with
      | afterMember fits each outer => exact ⟨_, rfl, .beforeName fits each outer⟩
  | name text atName =>
      obtain ⟨entries, frames, rfl, fits, each, outer⟩ := corresponds.atName atName
      refine ⟨_, ?_, .beforeColon (.members fits each outer)⟩
      rw [atName.isPlace.2.1]
      rfl
  | colon done text around =>
      cases corresponds with
      | beforeColon same =>
          cases same with
          | members fits each outer => exact ⟨_, rfl, .beforeMember (.members fits each outer)⟩

/-- The translated tokens write a node with the value that the reader of JSON finds. -/
theorem Corresponds.run {reading : Json.Reading} {state : Yaml.Reading} {tokens : List Json.Token}
    {value : Data} (corresponds : Corresponds reading state)
    (areWords : ∀ text, .word text ∈ tokens → SpellsWord text)
    (completes : tokens.foldlM Json.Reading.step reading = some (.finished value)) :
    ∃ node, (translateAll reading tokens).foldlM Yaml.Reading.step (state, {}) =
        some (.finished (some node), {}) ∧ HasValue Yaml.depthLimit node value := by
  induction tokens generalizing reading state with
  | nil =>
      cases completes
      cases corresponds with
      | finished hasValue => exact ⟨_, rfl, hasValue⟩
  | cons token rest ih =>
      rw [List.foldlM_cons] at completes
      obtain ⟨next, isStep, completes⟩ := Option.bind_eq_some_iff.mp completes
      obtain ⟨later, isLater, corresponds⟩ := corresponds.step (moves_of_step isStep)
        fun text isWord => areWords text (isWord ▸ List.mem_cons_self)
      obtain ⟨node, isNode, hasValue⟩ := ih corresponds
        (fun text member => areWords text (List.mem_cons_of_mem _ member)) completes
      refine ⟨node, ?_, hasValue⟩
      rw [translateAll, isStep, Option.elim_some, List.foldlM_append, isLater]
      exact isNode

end MenuPlan.Portable

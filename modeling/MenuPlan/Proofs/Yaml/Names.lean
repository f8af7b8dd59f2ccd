/-
# Names in documents

No object that a YAML text writes has two members with one name, at any depth, whatever is repeated
in the text or through aliases. The reader counts aliases in a state and can fail at every step;
`Yields` says what holds of the result when it does not fail.
-/

import MenuPlan.Proofs.Json.Restoring
import MenuPlan.Yaml.Reader

namespace MenuPlan.Yaml

variable {α β : Type}

/-- Every result of the step has the property, from whatever state. -/
def Yields (step : StateT Nat Option α) (P : α → Prop) : Prop :=
  ∀ followed result later, step.run followed = some (result, later) → P result

namespace Yields

variable {P : α → Prop} {Q : β → Prop}

/-- What is yielded after a step depends on what the step yields. -/
theorem bind {step : StateT Nat Option β} {next : β → StateT Nat Option α} (first : Yields step Q)
    (later : ∀ value, Q value → Yields (next value) P) : Yields (step >>= next) P := by
  intro followed result finish isResult
  rw [StateT.run_bind, Option.bind_eq_bind, Option.bind_eq_some_iff] at isResult
  obtain ⟨⟨value, between⟩, isValue, isResult⟩ := isResult
  exact later value (first _ _ _ isValue) _ _ _ isResult

theorem pure {value : α} (holds : P value) : Yields (Pure.pure value) P := by
  intro followed result later isResult
  cases isResult
  exact holds

theorem failure : Yields (Alternative.failure : StateT Nat Option α) P := by
  intro followed result later isResult
  cases isResult

/-- A step that does not touch the state. -/
theorem lift {value? : Option α} (each : ∀ value, value? = some value → P value) :
    Yields (liftM value? : StateT Nat Option α) P := by
  intro followed result later isResult
  obtain ⟨found, isFound, isPair⟩ := Option.bind_eq_some_iff.mp isResult
  cases isPair
  exact each result isFound

/-- A pass over a list yields a list of what its steps yield. -/
theorem mapM {step : β → StateT Nat Option α} {items : List β}
    (each : ∀ item ∈ items, Yields (step item) P) :
    Yields (items.mapM step) fun results => ∀ result ∈ results, P result := by
  induction items with
  | nil =>
      rw [List.mapM_nil]
      exact pure (List.forall_mem_nil _)
  | cons item rest ih =>
      obtain ⟨first, later⟩ := List.forall_mem_cons.mp each
      rw [List.mapM_cons]
      refine first.bind fun value holds => (ih later).bind fun values holdsLater => pure ?_
      exact List.forall_mem_cons.mpr ⟨holds, holdsLater⟩

end Yields

theorem distinct_of_ofInteger? {n : Int} {value : Data} (isValue : ofInteger? n = some value) :
    value.Distinct := by
  obtain ⟨number, -, rfl⟩ := Option.map_eq_some_iff.mp isValue
  trivial

theorem Fractional.distinct_toData (number : Fractional) : number.toData.Distinct := by
  cases number <;> trivial

/-- A plain scalar stands for no object. -/
theorem distinct_of_plainValue? {text : String} {value : Data}
    (isValue : plainValue? text = some value) : value.Distinct := by
  rw [plainValue?] at isValue
  by_cases isNothing : text = "" ∨ isNull text = true
  · rw [if_pos isNothing] at isValue
    cases isValue
    trivial
  rw [if_neg isNothing] at isValue
  cases isBoolean : boolean? text with
  | some b =>
      rw [isBoolean] at isValue
      cases isValue
      trivial
  | none =>
      rw [isBoolean] at isValue
      dsimp only at isValue
      split at isValue
      · exact distinct_of_ofInteger? isValue
      · by_cases isText : hasLeadingZero text.toList = true
        · rw [if_pos isText] at isValue
          cases isValue
          trivial
        · rw [if_neg isText] at isValue
          cases isValue
          cases fractional? text.toList with
          | none => trivial
          | some number => exact number.distinct_toData

/-- A scalar without a tag stands for no object. -/
theorem distinct_of_untagged {text : String} {plain : Bool} {value : Data}
    (isValue : (if plain then plainValue? text else some (.string text)) = some value) :
    value.Distinct := by
  split_ifs at isValue
  · exact distinct_of_plainValue? isValue
  · cases isValue
    trivial

/-- No scalar stands for an object. -/
theorem distinct_of_scalarValue? {tag : Option Tag} {text : String} {plain : Bool} {value : Data}
    (isValue : scalarValue? tag text plain = some value) : value.Distinct := by
  cases tag with
  | none => exact distinct_of_untagged isValue
  | some tag =>
      cases tag with
      | undecodable => exact distinct_of_untagged isValue
      | bool =>
          obtain ⟨b, -, rfl⟩ := Option.map_eq_some_iff.mp isValue
          trivial
      | int =>
          obtain ⟨n, -, isInteger⟩ := Option.bind_eq_some_iff.mp isValue
          exact distinct_of_ofInteger? isInteger
      | float =>
          obtain ⟨number, -, rfl⟩ := Option.map_eq_some_iff.mp isValue
          exact number.distinct_toData
      | null =>
          rw [scalarValue?] at isValue
          split_ifs at isValue
          cases isValue
          trivial
      | application => cases isValue
      | other =>
          cases isValue
          trivial

/-- The value of a node has distinct names. -/
theorem yields_value (aliases : Aliases) (depth : Nat) (node : Node) :
    Yields (value aliases depth node) Data.Distinct := by
  have anyNode : ∀ node, Yields (aliases.follow node) fun _ => True := fun _ _ _ _ _ => trivial
  induction depth generalizing node with
  | zero =>
      rw [value]
      refine (anyNode node).bind fun node _ => ?_
      cases node with
      | scalar properties text plain => exact Yields.lift fun _ => distinct_of_scalarValue?
      | aliasOf _ | sequence _ _ | mapping _ _ => exact Yields.failure
  | succ depth ih =>
      rw [value]
      refine (anyNode node).bind fun node _ => ?_
      cases node with
      | scalar properties text plain => exact Yields.lift fun _ => distinct_of_scalarValue?
      | aliasOf _ => exact Yields.failure
      | sequence properties items =>
          dsimp only
          split_ifs
          · refine (Yields.mapM fun item _ => ih item).bind fun values each => Yields.pure ?_
            exact Data.distinct_array_iff.mpr each
          · exact Yields.failure
      | mapping properties entries =>
          dsimp only
          split_ifs
          · refine (Yields.mapM (P := fun member => member.2.Distinct) fun entry _ => ?_).bind
              fun members each => Yields.pure ?_
            · have anyName : Yields (name aliases entry.1) fun _ => True :=
                fun _ _ _ _ => trivial
              exact anyName.bind fun _ _ => (ih entry.2).bind fun _ distinct =>
                Yields.pure distinct
            · refine Data.distinct_object_iff.mpr ⟨Fields.distinct_ofEntries members, ?_⟩
              exact fun member inObject => each member (Fields.mem_of_mem_ofEntries inObject)
          · exact Yields.failure

/-- The value that a text writes has distinct names. -/
theorem distinct_of_read? {text : String} {value : Data} (isRead : read? text = some value) :
    value.Distinct := by
  rw [read?] at isRead
  obtain ⟨tokens, -, isRead⟩ := Option.bind_eq_some_iff.mp isRead
  obtain ⟨root?, -, isRead⟩ := Option.bind_eq_some_iff.mp isRead
  cases root? with
  | none =>
      cases isRead
      trivial
  | some root =>
      obtain ⟨⟨found, later⟩, isFound, rfl⟩ := Option.map_eq_some_iff.mp isRead
      exact yields_value _ depthLimit root _ _ _ isFound

end MenuPlan.Yaml

/-
# Ordered fields

A list of named values in the order in which the names were first written. Object members, menu
items, plan entries and call attributes are all kept this way, because the order of a document is
part of what a plan says.

Inserting under a name that is already present keeps the place of the name and takes the new value;
erasing a name leaves the order of the others alone. The lemmas say what each operation does to the
names and to the value found under a name.
-/

namespace MenuPlan

/-- Values by name, in the order in which the names first appeared. -/
abbrev Fields (α : Type) := List (String × α)

namespace Fields

variable {α β : Type}

/-- The names, in order. -/
def names (fields : Fields α) : List String :=
  fields.map Prod.fst

/-- The value of the first entry with this name. -/
def get? : Fields α → String → Option α
  | [], _ => none
  | (key, value) :: rest, name => if key = name then some value else get? rest name

/-- Sets the value under a name: in place when the name is present, at the end otherwise. -/
def insert : Fields α → String → α → Fields α
  | [], name, value => [(name, value)]
  | (key, old) :: rest, name, value =>
      if key = name then (key, value) :: rest else (key, old) :: insert rest name value

/-- Removes every entry with this name and keeps the order of the others. -/
def erase (fields : Fields α) (name : String) : Fields α :=
  fields.filter fun entry => entry.1 ≠ name

/-- Inserts the second list into the first, entry by entry. -/
def overlay (fields entries : Fields α) : Fields α :=
  entries.foldl (fun done entry => insert done entry.1 entry.2) fields

/-- A list of entries as fields: a repeated name keeps its first place and takes the last value. -/
def ofEntries (entries : List (String × α)) : Fields α :=
  overlay [] entries

/-- Applies a function to every value. -/
def mapValues (f : α → β) (fields : Fields α) : Fields β :=
  fields.map fun entry => (entry.1, f entry.2)

/-- No name is written twice. -/
def Distinct (fields : Fields α) : Prop :=
  (names fields).Nodup

instance (fields : Fields α) : Decidable (Distinct fields) :=
  inferInstanceAs (Decidable (names fields).Nodup)

@[simp] theorem names_nil : names ([] : Fields α) = [] := rfl

@[simp] theorem names_cons (key : String) (value : α) (rest : Fields α) :
    names ((key, value) :: rest) = key :: names rest := rfl

@[simp] theorem names_append (fields more : Fields α) :
    names (fields ++ more) = names fields ++ names more :=
  List.map_append

@[simp] theorem names_mapValues (f : α → β) (fields : Fields α) :
    names (mapValues f fields) = names fields := by
  simp [names, mapValues, Function.comp_def]

/-- A name has a value exactly when it is one of the names. -/
theorem get?_isSome_iff (fields : Fields α) (name : String) :
    (get? fields name).isSome ↔ name ∈ names fields := by
  induction fields with
  | nil => simp [get?]
  | cons entry rest ih =>
      obtain ⟨key, value⟩ := entry
      by_cases same : key = name
      · simp [get?, same]
      · simp [get?, same, ih, Ne.symm same]

/-- A name without a value is none of the names. -/
theorem get?_eq_none_iff (fields : Fields α) (name : String) :
    get? fields name = none ↔ name ∉ names fields := by
  rw [← get?_isSome_iff, Option.not_isSome_iff_eq_none]

/-- What is found is an entry. -/
theorem mem_of_get?_eq_some {fields : Fields α} {name : String} {value : α}
    (found : get? fields name = some value) : (name, value) ∈ fields := by
  induction fields with
  | nil => cases found
  | cons entry rest ih =>
      obtain ⟨key, first⟩ := entry
      by_cases same : key = name
      · rw [get?, if_pos same] at found
        cases found
        rw [same]
        exact List.mem_cons_self
      · rw [get?, if_neg same] at found
        exact List.mem_cons_of_mem _ (ih found)

/-- Under distinct names every entry is found. -/
theorem get?_eq_some_of_mem {fields : Fields α} (distinct : Distinct fields) {name : String}
    {value : α} (member : (name, value) ∈ fields) : get? fields name = some value := by
  induction fields with
  | nil => cases member
  | cons entry rest ih =>
      obtain ⟨key, first⟩ := entry
      obtain ⟨fresh, later⟩ := List.nodup_cons.mp distinct
      rcases List.mem_cons.mp member with same | inRest
      · cases same
        rw [get?, if_pos rfl]
      · have different : key ≠ name := by
          intro same
          exact fresh (List.mem_map.mpr ⟨(name, value), inRest, same.symm⟩)
        rw [get?, if_neg different]
        exact ih later inRest

/-- The order of the entries is of no account for what is found. -/
theorem get?_of_perm {fields other : Fields α} (distinct : Distinct fields)
    (reordered : fields.Perm other) (name : String) : get? other name = get? fields name := by
  have distinctOther : Distinct other := (reordered.map Prod.fst).nodup_iff.mp distinct
  cases found : get? fields name with
  | some value =>
      exact get?_eq_some_of_mem distinctOther
        (reordered.mem_iff.mp (mem_of_get?_eq_some found))
  | none =>
      rw [get?_eq_none_iff] at found ⊢
      intro present
      exact found ((reordered.map Prod.fst).mem_iff.mpr present)

/-- Erasing a name loses its value and no other. -/
theorem get?_erase (fields : Fields α) (name other : String) :
    get? (erase fields name) other = if other = name then none else get? fields other := by
  induction fields with
  | nil => simp [erase, get?]
  | cons entry rest ih =>
      obtain ⟨key, value⟩ := entry
      rw [erase] at ih ⊢
      by_cases erased : key = name
      · rw [List.filter_cons_of_neg (by simp [erased]), ih]
        by_cases same : other = name
        · rw [if_pos same, if_pos same]
        · have different : key ≠ other := fun h => same (h.symm.trans erased)
          rw [if_neg same, if_neg same, get?, if_neg different]
      · rw [List.filter_cons_of_pos (by simp [erased]), get?, get?, ih]
        by_cases found : key = other
        · rw [if_pos found, if_neg (fun h => erased (found.trans h)), if_pos found]
        · rw [if_neg found, if_neg found]

/-- Erasing a name leaves the others in their order. -/
theorem names_erase (fields : Fields α) (name : String) :
    names (erase fields name) = (names fields).filter fun other => other ≠ name := by
  rw [names, names, erase, List.filter_map]
  rfl

/-- Under an absent name there is nothing to erase. -/
theorem erase_of_notMem {fields : Fields α} {name : String} (absent : name ∉ names fields) :
    erase fields name = fields := by
  apply List.filter_eq_self.mpr
  intro entry member
  rw [decide_eq_true_iff]
  rintro rfl
  exact absent (List.mem_map_of_mem member)

/-- A function of names and values changes what is found under a name and nothing else. -/
theorem get?_map (f : String → α → β) (fields : Fields α) (name : String) :
    get? (fields.map fun entry => (entry.1, f entry.1 entry.2)) name =
      (get? fields name).map (f name) := by
  induction fields with
  | nil => rfl
  | cons entry rest ih =>
      obtain ⟨key, value⟩ := entry
      rw [List.map_cons, get?, get?, ih]
      by_cases same : key = name
      · rw [if_pos same, if_pos same, same]
        rfl
      · rw [if_neg same, if_neg same]

/-- What was inserted is found. -/
@[simp] theorem get?_insert_self (fields : Fields α) (name : String) (value : α) :
    get? (insert fields name value) name = some value := by
  induction fields with
  | nil => simp [insert, get?]
  | cons entry rest ih =>
      obtain ⟨key, old⟩ := entry
      by_cases same : key = name
      · simp [insert, get?, same]
      · simp [insert, get?, same, ih]

/-- Inserting under one name does not change what is found under another. -/
theorem get?_insert_of_ne (fields : Fields α) {name other : String} (value : α)
    (different : name ≠ other) :
    get? (insert fields name value) other = get? fields other := by
  induction fields with
  | nil => simp [insert, get?, different]
  | cons entry rest ih =>
      obtain ⟨key, old⟩ := entry
      by_cases same : key = name
      · subst same
        simp [insert, get?, different]
      · by_cases found : key = other
        · subst found
          simp [insert, get?, same]
        · simp [insert, get?, same, found, ih]

/-- Insertion adds a name at the end, or no name at all. -/
theorem names_insert (fields : Fields α) (name : String) (value : α) :
    names (insert fields name value) =
      if name ∈ names fields then names fields else names fields ++ [name] := by
  induction fields with
  | nil => simp [insert, names]
  | cons entry rest ih =>
      obtain ⟨key, old⟩ := entry
      by_cases same : key = name
      · subst same
        simp [insert]
      · by_cases present : name ∈ names rest
        · simp [insert, same, ih, present]
        · simp [insert, same, ih, present, Ne.symm same]

/-- Insertion keeps names distinct. -/
theorem Distinct.insert {fields : Fields α} (distinct : Distinct fields) (name : String)
    (value : α) : Distinct (insert fields name value) := by
  unfold Distinct at *
  rw [names_insert]
  split
  · exact distinct
  · rename_i absent
    refine List.nodup_append.mpr ⟨distinct, List.pairwise_singleton _ _, ?_⟩
    intro first inFields second isName same
    rw [List.mem_singleton] at isName
    exact absent (isName ▸ same ▸ inFields)

/-- So does an overlay, whatever the names of its entries. -/
theorem Distinct.overlay {fields : Fields α} (distinct : Distinct fields) (entries : Fields α) :
    Distinct (overlay fields entries) := by
  induction entries generalizing fields with
  | nil => exact distinct
  | cons entry rest ih => exact ih (distinct.insert entry.1 entry.2)

/-- Leaving entries out keeps the names of the others distinct. -/
theorem Distinct.filter {fields : Fields α} (distinct : Distinct fields)
    (keep : String × α → Bool) : Distinct (fields.filter keep) :=
  List.Nodup.sublist (List.Sublist.map Prod.fst List.filter_sublist) distinct

/-- Erasing a name keeps the others distinct. -/
theorem Distinct.erase {fields : Fields α} (distinct : Distinct fields) (name : String) :
    Distinct (erase fields name) :=
  distinct.filter _

/-- Fields built from entries have distinct names. -/
theorem distinct_ofEntries (entries : List (String × α)) : Distinct (ofEntries entries) := by
  have noNames : Distinct ([] : Fields α) := List.nodup_nil
  exact noNames.overlay entries

/-- A new name is appended. -/
theorem insert_of_notMem {fields : Fields α} {name : String} (value : α)
    (absent : name ∉ names fields) : insert fields name value = fields ++ [(name, value)] := by
  induction fields with
  | nil => rfl
  | cons entry rest ih =>
      obtain ⟨key, old⟩ := entry
      rw [names_cons, List.mem_cons, not_or] at absent
      rw [insert, if_neg (Ne.symm absent.1), ih absent.2, List.cons_append]

/-- Without a repeated name all entries are appended. -/
theorem overlay_of_distinct {fields entries : Fields α} (distinct : Distinct (fields ++ entries)) :
    overlay fields entries = fields ++ entries := by
  induction entries generalizing fields with
  | nil => exact (List.append_nil fields).symm
  | cons entry rest ih =>
      obtain ⟨name, value⟩ := entry
      have regrouped : fields ++ (name, value) :: rest = fields ++ [(name, value)] ++ rest := by
        rw [List.append_assoc]
        rfl
      have absent : name ∉ names fields := by
        intro present
        rw [Distinct, names_append, names_cons] at distinct
        exact (List.nodup_append.mp distinct).2.2 name present name List.mem_cons_self rfl
      rw [regrouped] at distinct ⊢
      rw [← ih distinct, ← insert_of_notMem value absent]
      rfl

/-- Entries without a repeated name are fields as they stand. -/
theorem ofEntries_of_distinct {entries : Fields α} (distinct : Distinct entries) :
    ofEntries entries = entries :=
  overlay_of_distinct distinct

/-- Insertion brings in one entry. -/
theorem mem_of_mem_insert {fields : Fields α} {name : String} {value : α} {entry : String × α}
    (member : entry ∈ insert fields name value) : entry = (name, value) ∨ entry ∈ fields := by
  induction fields with
  | nil => exact Or.inl (List.mem_singleton.mp member)
  | cons first rest ih =>
      obtain ⟨key, old⟩ := first
      rw [insert] at member
      split at member
      · rename_i same
        rcases List.mem_cons.mp member with isFirst | inRest
        · exact Or.inl (same ▸ isFirst)
        · exact Or.inr (List.mem_cons_of_mem _ inRest)
      · rcases List.mem_cons.mp member with isFirst | inserted
        · exact Or.inr (isFirst ▸ List.mem_cons_self)
        · exact (ih inserted).imp_right (List.mem_cons_of_mem _)

/-- An overlay has no entries but those of its parts. -/
theorem mem_of_mem_overlay {fields entries : Fields α} {entry : String × α}
    (member : entry ∈ overlay fields entries) : entry ∈ fields ∨ entry ∈ entries := by
  induction entries generalizing fields with
  | nil => exact Or.inl member
  | cons first rest ih =>
      rcases ih member with inserted | later
      · rcases mem_of_mem_insert inserted with rfl | inFields
        · exact Or.inr List.mem_cons_self
        · exact Or.inl inFields
      · exact Or.inr (List.mem_cons_of_mem _ later)

/-- Fields made of entries have no other entries. -/
theorem mem_of_mem_ofEntries {entries : List (String × α)} {entry : String × α}
    (member : entry ∈ ofEntries entries) : entry ∈ entries :=
  (mem_of_mem_overlay member).resolve_left List.not_mem_nil

end Fields

end MenuPlan

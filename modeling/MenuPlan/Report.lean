/-
# Errors and warnings

What a compilation can report. Errors are the causes that stop it, with a stable code where they
come from the configuration; warnings accompany a plan.
-/

import MenuPlan.Data.Basic
import MenuPlan.Record

namespace MenuPlan

/-- What stops a compilation. -/
inductive CompileError where
  /-- The text is no configuration document or no plan file. -/
  | parse (reason : String)
  /-- A value does not have the required form. -/
  | validation (location detail : String)
  /-- The grammar of items is itself faulty. -/
  | invalidSchema (reason : String)
  /-- A breadcrumb names a parent that does not exist. -/
  | missingParent (parent child : String)
  /-- Following parents from the first breadcrumb of the path leads back into the path; `name` is
  its last breadcrumb. -/
  | circularReference (name : String) (path : List String)
  /-- A file could not be read or written. -/
  | io (reason : String)
  /-- The text is not JSON. -/
  | json (reason : String)
deriving DecidableEq

namespace CompileError

/-- The stable code of an error in the configuration. -/
def code : CompileError → Option String
  | parse _ => some "E2001"
  | validation _ _ => some "E2002"
  | invalidSchema _ => some "E2003"
  | missingParent _ _ => some "E2010"
  | circularReference _ _ => some "E2011"
  | io _ | json _ => none

/-- The text of an error. -/
def message : CompileError → String
  | parse reason => "E2001: parse error: " ++ reason
  | validation location detail => s!"E2002: invalid configuration at '{location}': {detail}"
  | invalidSchema reason => "E2003: invalid item schema: " ++ reason
  | missingParent parent child =>
      s!"E2010: parent '{parent}' of breadcrumb '{child}' is not registered"
  | circularReference name path =>
      s!"E2011: circular reference detected with parent of breadcrumb '{name}', path: "
        ++ String.intercalate " -> " path
  | io reason => "I/O error: " ++ reason
  | json reason => "JSON error: " ++ reason

end CompileError

/-- A remark that does not stop a compilation. -/
structure Warning where
  code : String
  message : String
  /-- Where in the document it applies. -/
  location : Option String
deriving DecidableEq

namespace Warning

/-- The fields of a warning. -/
def recordType : RecordType where
  title := "struct CompileWarning"
  fields := [⟨"code", .text, .required⟩, ⟨"message", .text, .required⟩,
    ⟨"location", .optionalText, .optional⟩]

/-- Reads a warning. -/
def read (value : Data) : Except Mismatch Warning := do
  let members ← recordType.read value
  return {
    code := Fields.textAt members "code"
    message := Fields.textAt members "message"
    location := Fields.optionalTextAt members "location" }

/-- A warning as data. -/
def toData (warning : Warning) : Data :=
  .object ([("code", .string warning.code), ("message", .string warning.message)]
    ++ warning.location.toList.map fun location => ("location", .string location))

/-- Adds warnings one after another, leaving out those that are already there. -/
def collect (known raised : List Warning) : List Warning :=
  raised.foldl (fun known warning => if warning ∈ known then known else known ++ [warning]) known

/-- Collecting loses no warning and makes none up. -/
theorem mem_collect {known raised : List Warning} {warning : Warning} :
    warning ∈ collect known raised ↔ warning ∈ known ∨ warning ∈ raised := by
  induction raised generalizing known with
  | nil => simp [collect]
  | cons first rest ih =>
      rw [collect, List.foldl_cons, ← collect, ih, List.mem_cons]
      by_cases present : first ∈ known
      · rw [if_pos present]
        constructor
        · rintro (old | later)
          · exact Or.inl old
          · exact Or.inr (Or.inr later)
        · rintro (old | rfl | later)
          · exact Or.inl old
          · exact Or.inl present
          · exact Or.inr later
      · rw [if_neg present, List.mem_append, List.mem_singleton, or_assoc]

end Warning

end MenuPlan

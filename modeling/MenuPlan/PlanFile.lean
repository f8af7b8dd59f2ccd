/-
# Plan files

A plan file holds a plan as indented JSON text, together with the version of its format, the time
and the version of the compilation, and what the plan was compiled from. `PlanFile.text` writes it
and `PlanFile.load` reads it back as data. A plan file of another format version is refused, and so
is JSON text that has no version at all.
-/

import MenuPlan.FileTree
import MenuPlan.Json.Reader
import MenuPlan.Json.Writer
import MenuPlan.Plan
import MenuPlan.Sha256

namespace MenuPlan

/-- The document that a plan was compiled from: the name of its file and the digest of its text. -/
structure SourceDocument where
  file : String
  sha256 : String
deriving DecidableEq

namespace SourceDocument

/-- The fields of a source document. -/
def recordType : RecordType where
  title := "struct SourceDocument"
  fields := [⟨"file", .text, .required⟩, ⟨"sha256", .text, .required⟩]

/-- Reads a source document. -/
def read (value : Data) : Except Mismatch SourceDocument := do
  let members ← recordType.read value
  return { file := Fields.textAt members "file", sha256 := Fields.textAt members "sha256" }

/-- A source document as data. -/
def toData (source : SourceDocument) : Data :=
  .object [("file", .string source.file), ("sha256", .string source.sha256)]

/-- The source document with this text at a path. -/
def ofText (path text : String) : SourceDocument where
  file := (FilePath.fileName? path).getD "unknown"
  sha256 := Sha256.ofText text

end SourceDocument

/-- A plan with where it comes from. -/
structure PlanFile where
  /-- The time of the compilation. -/
  compiledAt : String
  source : SourceDocument
  entries : Plan

namespace PlanFile

/-- The version of the format. -/
def formatVersion : Nat := 1

/-- The version of the compiler. -/
def compilerVersion : String := "0.1.0"

/-- The name of the member that holds the version of the format. -/
def versionName : String := "plan_format_version"

/-- A plan file as data. -/
def toData (file : PlanFile) : Data :=
  .object [
    (versionName, .ofNat formatVersion),
    ("compiled_at", .string file.compiledAt),
    ("compiler_version", .string compilerVersion),
    ("source", file.source.toData),
    ("entries", file.entries.toData)]

/-- The text of a plan file. -/
def text (file : PlanFile) : String :=
  Json.indented file.toData ++ "\n"

/-- The version of the format that data claims to have: a non-negative integer. -/
def version? (value : Data) : Option Nat :=
  match value.member? versionName with
  | some (.number n) => n.toNat?
  | _ => none

/-- What is reported of a text that is not JSON. -/
def malformed : String := "the text is not well-formed JSON"

/-- Checks that data has the version of this format. -/
def checkVersion (value : Data) : Except CompileError Unit :=
  match version? value with
  | none => .error (.parse s!"missing '{versionName}'")
  | some version =>
      if version = formatVersion then .ok ()
      else
        let found := natText version
        let expected := natText formatVersion
        .error (.parse s!"unsupported plan format version: {found} (expected {expected})")

/-- The data of the plan file that a text writes. -/
def load (text : String) : Except CompileError Data :=
  match Json.read? text with
  | none => .error (.json malformed)
  | some value => do
      checkVersion value
      return value

/-- The plan file for the document with this text at a path, and the remarks on the document. -/
def ofText (settings : Settings) (compiledAt path text : String) :
    Except CompileError (PlanFile × List Warning) := do
  let compiled ← Outline.compileText settings text
  return (
    { compiledAt, source := SourceDocument.ofText path text, entries := compiled.plan },
    compiled.warnings)

end PlanFile

namespace FileTree

/-- The text of a file, a failure being an error of a compilation. -/
def document (tree : FileTree) (path : String) : Except CompileError String :=
  match tree.readText path with
  | .ok text => .ok text
  | .error error => .error (.io error.message)

/-- The configuration document in a file. -/
def outline (tree : FileTree) (path : String) : Except CompileError Outline := do
  Outline.parse (← tree.document path)

/-- What the configuration document in a file becomes. -/
def compile (tree : FileTree) (settings : Settings) (path : String) :
    Except CompileError Compiled := do
  Outline.compileText settings (← tree.document path)

/-- The plan file for the configuration document in a file. -/
def planFile (tree : FileTree) (settings : Settings) (compiledAt path : String) :
    Except CompileError (PlanFile × List Warning) := do
  PlanFile.ofText settings compiledAt path (← tree.document path)

/-- The tree after a plan file has been written. -/
def writePlanFile (tree : FileTree) (file : PlanFile) (path : String) :
    Except CompileError FileTree :=
  match tree.writeText path file.text with
  | .ok tree => .ok tree
  | .error error => .error (.io error.message)

/-- The data of the plan file at a path. -/
def loadPlanFile (tree : FileTree) (path : String) : Except CompileError Data := do
  PlanFile.load (← tree.document path)

end FileTree

end MenuPlan

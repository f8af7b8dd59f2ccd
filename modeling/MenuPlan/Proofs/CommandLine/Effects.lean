/-
# What a compilation leaves behind

A run of the program that compiles is all or nothing. Whatever makes it fail, be it an unknown
format of the log, a file that cannot be read, a document that does not compile or a path where no
file can be made, the tree of files is what it was before and the output stream is empty. A run
that succeeds changes one file, if it was asked to, and else writes to the output stream; it never
does both.

What the log and the remarks say goes to the error stream and has no part in this.
-/

import MenuPlan.Proofs.CommandLine.Agreement

namespace MenuPlan

namespace FileTree

variable {tree after : FileTree} {path text : String}

/-- The second tree has a file with this text at a location where the first has a file or nothing,
and is the same everywhere else. -/
structure IsWrittenAt (before : FileTree) (location : Location) (text : String)
    (after : FileTree) : Prop where
  noDirectory : before.get? location ≠ some .directory
  content : after.get? location = some (.file text.toUTF8)
  elsewhere : ∀ other, other ≠ location → after.get? other = before.get? other
  working : after.working = before.working

/-- Writing succeeds exactly where a file can be made. -/
theorem exists_writeText_iff :
    (∃ after, tree.writeText path text = .ok after) ↔
      ∃ location, tree.target path = .ok location := by
  simp only [writeText, bind_eq_ok_iff]
  constructor
  · rintro ⟨after, location, isTarget, -⟩
    exact ⟨location, isTarget⟩
  · rintro ⟨location, isTarget⟩
    exact ⟨_, location, isTarget, rfl⟩

/-- A text is written to the file that the path leads to, and nowhere else. -/
theorem isWrittenAt_of_writeText (isWritten : tree.writeText path text = .ok after) :
    ∃ location, tree.target path = .ok location ∧ tree.IsWrittenAt location text after := by
  obtain ⟨location, isTarget, isPut⟩ := bind_eq_ok_iff.mp isWritten
  cases isPut
  obtain ⟨-, -, -, -, -, -, notRoot, noDirectory⟩ := target_spec isTarget
  refine ⟨location, isTarget, noDirectory, get?_put_self tree location _ notRoot, ?_, rfl⟩
  intro other different
  exact get?_put_of_ne tree _ different

end FileTree

namespace CommandLine

/-- How a compilation may end, with its code, what is on the output stream and the tree afterwards:
it fails and leaves nothing, it prints the plan file, or it writes the plan file where the path
leads. It only fails if there is no plan file or no file can be made for it. -/
inductive EndsWith (before : FileTree) (built : Except CompileError (PlanFile × List Warning)) :
    Option String → Nat → String → FileTree → Prop where
  | nothing {output : Option String} {code : Nat} (fails : code ≠ 0)
      (cause : built.isOk = false ∨
        ∃ path, output = some path ∧ ¬ ∃ location, before.target path = .ok location) :
      EndsWith before built output code "" before
  | printed {file : PlanFile} {warnings : List Warning} (isBuilt : built = .ok (file, warnings)) :
      EndsWith before built none 0 file.text before
  | written {file : PlanFile} {warnings : List Warning} {path : String} {location : Location}
      {after : FileTree} (isBuilt : built = .ok (file, warnings))
      (isTarget : before.target path = .ok location)
      (isWritten : before.IsWrittenAt location file.text after)
      (isRead : after.readText path = .ok file.text) :
      EndsWith before built (some path) 0 "" after

namespace EndsWith

variable {before after : FileTree} {built : Except CompileError (PlanFile × List Warning)}
  {output : Option String} {code : Nat} {text : String}

/-- The code is zero exactly if there is a plan file and a place for it. -/
theorem code_eq_zero_iff (ends : EndsWith before built output code text after) :
    code = 0 ↔ built.isOk = true ∧
      ∀ path, output = some path → ∃ location, before.target path = .ok location := by
  cases ends with
  | nothing fails cause =>
      apply iff_of_false fails
      rintro ⟨isBuilt, isPlace⟩
      rcases cause with notBuilt | ⟨path, isPath, noPlace⟩
      · exact absurd isBuilt (notBuilt ▸ Bool.false_ne_true)
      · exact noPlace (isPlace path isPath)
  | printed isBuilt =>
      rw [isBuilt]
      exact iff_of_true rfl ⟨rfl, nofun⟩
  | written isBuilt isTarget _ _ =>
      rw [isBuilt]
      refine iff_of_true rfl ⟨rfl, ?_⟩
      rintro _ ⟨⟩
      exact ⟨_, isTarget⟩

/-- With any other code nothing is left behind. -/
theorem eq_of_code_ne_zero (ends : EndsWith before built output code text after)
    (fails : code ≠ 0) : after = before ∧ text = "" := by
  cases ends with
  | nothing => exact ⟨rfl, rfl⟩
  | printed | written => exact absurd rfl fails

/-- With code zero the plan file has gone where it was asked for. -/
theorem delivers (ends : EndsWith before built output code text after) (succeeds : code = 0) :
    ∃ file warnings, built = .ok (file, warnings) ∧
      (output = none → after = before ∧ text = file.text) ∧
      ∀ path, output = some path → text = "" ∧ after.readText path = .ok file.text ∧
        ∃ location, before.target path = .ok location ∧
          before.IsWrittenAt location file.text after := by
  cases ends with
  | nothing fails _ => exact absurd succeeds fails
  | printed isBuilt => exact ⟨_, _, isBuilt, fun _ => ⟨rfl, rfl⟩, nofun⟩
  | written isBuilt isTarget isWritten isRead =>
      refine ⟨_, _, isBuilt, nofun, ?_⟩
      rintro _ ⟨⟩
      exact ⟨rfl, isRead, _, isTarget, isWritten⟩

end EndsWith

namespace Compilation

variable {settings : Settings} {now : String} {tree : FileTree} {config : String}
  {output : Option String}

/-- A compilation that stops leaves nothing. -/
theorem StopsWith.endsWith {line : String} {ending : Report × FileTree}
    (stops : StopsWith tree line ending)
    (noPlan : (tree.planFile settings now config).isOk = false) :
    EndsWith tree (tree.planFile settings now config) output ending.1.code ending.1.output
      ending.2 := by
  rw [stops.output, stops.unchanged, stops.fails]
  exact .nothing Nat.one_ne_zero (.inl noPlan)

/-- One that comes to writing prints or writes the plan file, or leaves nothing because no file can
be made. -/
theorem Writes.endsWith {file : PlanFile} {warnings : List Warning} {ending : Report × FileTree}
    (isBuilt : tree.planFile settings now config = .ok (file, warnings))
    (writes : Writes tree config file warnings output ending) :
    EndsWith tree (tree.planFile settings now config) output ending.1.code ending.1.output
      ending.2 := by
  cases writes with
  | stream succeeds isOutput _ =>
      rw [succeeds, isOutput]
      exact .printed isBuilt
  | file isWritten succeeds isOutput _ =>
      obtain ⟨location, isTarget, isWrittenAt⟩ := FileTree.isWrittenAt_of_writeText isWritten
      rw [succeeds, isOutput]
      exact .written isBuilt isTarget isWrittenAt (FileTree.readText_writeText isWritten)
  | @nowhere path report error isRefused fails isOutput _ =>
      have noFile : ¬ ∃ after, tree.writeText path file.text = .ok after := by
        rw [isRefused]
        rintro ⟨_, ⟨⟩⟩
      rw [fails, isOutput]
      refine .nothing Nat.one_ne_zero (.inr ⟨path, rfl, fun hasPlace => ?_⟩)
      exact noFile (FileTree.exists_writeText_iff.mpr hasPlace)

/-- Every compilation ends in one of these ways. -/
theorem endsWith_run (settings : Settings) (now : String) (tree : FileTree) (config : String)
    (output : Option String) :
    let ending := run settings now tree config output
    EndsWith tree (tree.planFile settings now config) output ending.1.code ending.1.output
      ending.2 := by
  cases fate settings now config tree output with
  | absent _ _ noPlan stops => exact stops.endsWith noPlan
  | refused _ _ _ noPlan stops => exact stops.endsWith noPlan
  | compiled _ _ isBuilt writes => exact writes.endsWith isBuilt

end Compilation

section

variable {environment : Environment} {arguments : List String} {invocation : Invocation}

/-- A run whose log has an unknown format ends before the command is carried out. -/
theorem run_of_log?_eq_none (parsed : Invocation.read environment arguments = .ok invocation)
    (noLog : invocation.log? = none) (now : String) (tree : FileTree) :
    let result := run environment now tree arguments
    result.code = 2 ∧ result.output = "" ∧ result.tree = tree := by
  have isOpening : opening environment arguments =
      .error (unknownFormat invocation.logFormat) := by
    simp only [opening, parsed, noLog]
  rw [run, isOpening]
  exact ⟨rfl, rfl, rfl⟩

/-- Any other run ends as its command does; what is told goes to the error stream. -/
theorem run_of_log?_eq_some (parsed : Invocation.read environment arguments = .ok invocation)
    {log : Log.Settings} (isLog : invocation.log? = some log) (now : String) (tree : FileTree) :
    let result := run environment now tree arguments
    let ending := invocation.execute now tree
    result.code = ending.1.code ∧ result.output = ending.1.output ∧ result.tree = ending.2 := by
  have isOpening : opening environment arguments = .ok (invocation, log) := by
    simp only [opening, parsed, isLog]
  rw [run, isOpening]
  exact ⟨rfl, rfl, rfl⟩

/-- A run that compiles and has a log ends in one of the ways of a compilation. -/
theorem endsWith_run (parsed : Invocation.read environment arguments = .ok invocation)
    {config : String} {output : Option String}
    (isCompile : invocation.command = .compile config output) {log : Log.Settings}
    (isLog : invocation.log? = some log) (now : String) (tree : FileTree) :
    let result := run environment now tree arguments
    EndsWith tree (tree.planFile invocation.settings now config) output result.code result.output
      result.tree := by
  intro result
  obtain ⟨isCode, isOutput, isTree⟩ := run_of_log?_eq_some parsed isLog now tree
  have isEnding : invocation.execute now tree =
      Compilation.run invocation.settings now tree config output := by
    rw [Invocation.execute, isCompile]
  have ends := Compilation.endsWith_run invocation.settings now tree config output
  rw [isCode, isOutput, isTree, isEnding]
  exact ends

end

/-- A run that compiles is all or nothing. It succeeds exactly if the format of the log is known,
the plan file of the document can be built, and a file can be made at the output path if there is
one. Otherwise the tree stays as it was and the output stream is empty. If it succeeds with an
output path, the file that the path leads to is made or replaced, it has the text of the plan file
and nothing else, all other locations are as before, and the output stream is empty; and if it
succeeds without one, the tree stays as it was and the output stream has this text. -/
theorem compilation_is_all_or_nothing (environment : Environment) (now : String) (tree : FileTree)
    (arguments : List String) (invocation : Invocation) (config : String) (output : Option String)
    (parsed : Invocation.read environment arguments = .ok invocation)
    (isCompile : invocation.command = .compile config output) :
    let built := tree.planFile invocation.settings now config
    let result := run environment now tree arguments
    (result.code = 0 ↔ invocation.log?.isSome = true ∧ built.isOk = true ∧
      ∀ path, output = some path → ∃ location, tree.target path = .ok location) ∧
    (result.code ≠ 0 → result.tree = tree ∧ result.output = "") ∧
    (result.code = 0 → ∃ file warnings, built = .ok (file, warnings) ∧
      (output = none → result.tree = tree ∧ result.output = Json.indented file.toData ++ "\n") ∧
      ∀ path, output = some path → result.output = "" ∧
        result.tree.readText path = .ok (Json.indented file.toData ++ "\n") ∧
        ∃ location, tree.target path = .ok location ∧
          tree.IsWrittenAt location (Json.indented file.toData ++ "\n") result.tree) := by
  intro built result
  cases isLog : invocation.log? with
  | none =>
      obtain ⟨isCode, isOutput, isTree⟩ := run_of_log?_eq_none parsed isLog now tree
      have fails : result.code ≠ 0 := by
        rw [isCode]
        decide
      have noLog : ¬ (none : Option Log.Settings).isSome = true := nofun
      exact ⟨iff_of_false fails fun ⟨hasLog, _⟩ => noLog hasLog, fun _ => ⟨isTree, isOutput⟩,
        fun succeeds => absurd succeeds fails⟩
  | some log =>
      have ends := endsWith_run parsed isCompile isLog now tree
      refine ⟨?_, ends.eq_of_code_ne_zero, ends.delivers⟩
      rw [Option.isSome_some, eq_self, true_and]
      exact ends.code_eq_zero_iff

/-- A document with one breadcrumb. -/
def oneBreadcrumb : String := "breadcrumbs: \x7b home: \x7b label: Home \x7d \x7d"

/-- A document can be replaced by its own plan file, and stays when the plan file would have to go
into a directory that does not exist. -/
theorem oneBreadcrumb_is_all_or_nothing :
    let tree := FileTree.withDocument oneBreadcrumb
    let arguments (output : String) := ["compile", "-c", "menu.yaml", "--output", output]
    let invocation (output : String) : Invocation :=
      { command := .compile "menu.yaml" (some output), settings := {}, logLevel := "warn"
        logFormat := "pretty" }
    (∀ output ∈ ["menu.yaml", "plans/menu.json"],
      Invocation.read [] (arguments output) = .ok (invocation output)) ∧
    (∃ file : PlanFile, (run [] "now" tree (arguments "menu.yaml")).tree.readText "menu.yaml" =
      .ok (Json.indented file.toData ++ "\n")) ∧
    (run [] "now" tree (arguments "plans/menu.json")).tree = tree := by
  intro tree arguments invocation
  have parsed : ∀ output ∈ ["menu.yaml", "plans/menu.json"],
      Invocation.read [] (arguments output) = .ok (invocation output) := by
    simp only [List.forall_mem_cons]
    exact ⟨by cbv, by cbv, nofun⟩
  have isBuilt : (tree.planFile {} "now" "menu.yaml").isOk = true := by
    have isOk : (Outline.compileText {} oneBreadcrumb).isOk = true := by decide +kernel
    cases isCompiled : Outline.compileText {} oneBreadcrumb with
    | error error =>
        rw [isCompiled] at isOk
        cases isOk
    | ok compiled =>
        rw [(FileTree.compile_writeText "now" (FileTree.writeText_withDocument _) isCompiled).2]
        rfl
  have replaced := compilation_is_all_or_nothing [] "now" tree _ _ _ _
    (parsed "menu.yaml" (by decide)) rfl
  have refused := compilation_is_all_or_nothing [] "now" tree _ _ _ _
    (parsed "plans/menu.json" (by decide)) rfl
  refine ⟨parsed, ?_, (refused.2.1 ?_).1⟩
  · have hasPlace : tree.target "menu.yaml" = .ok ["menu.yaml"] := rfl
    have succeeds := replaced.1.mpr ⟨by cbv, isBuilt, fun path isPath =>
      ⟨_, Option.some.inj isPath ▸ hasPlace⟩⟩
    obtain ⟨file, _, -, -, written⟩ := replaced.2.2 succeeds
    exact ⟨file, (written "menu.yaml" rfl).2.1⟩
  · intro succeeds
    obtain ⟨location, isTarget⟩ := (refused.1.mp succeeds).2.2 "plans/menu.json" rfl
    have noPlace : tree.target "plans/menu.json" = .error .notFound := rfl
    cases isTarget.symm.trans noPlace

end CommandLine

end MenuPlan

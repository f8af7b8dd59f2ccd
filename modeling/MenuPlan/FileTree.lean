/-
# Trees of files

The files and directories that a command can see. An entry is known by its location, the names from
the root down to it; the root itself is a directory. A path is a text that leads from the working
directory, or from the root when it begins with a slash, to a location: names are separated by
slashes, `.` stays where it is and `..` goes up. Every step needs a directory to start from, so a
path can fail on the way although its last name exists.

Reading leaves a tree as it is. Writing changes the entry at one location only, which
`get?_put_of_ne` says; a path that cannot be written leaves no tree at all.
-/

import MenuPlan.Text.Split

namespace MenuPlan

/-- Why a path cannot be read or written. -/
inductive FileError where
  | notFound
  /-- A step of the path starts from a file. -/
  | notDirectory
  | isDirectory
  /-- The file is not UTF-8 text. -/
  | notText
  /-- Another reason, which only the system knows. -/
  | system (reason : String)
deriving DecidableEq, Repr

namespace FileError

/-- The text of the error, with the number under which the system knows it. -/
def message : FileError → String
  | notFound => "No such file or directory (os error 2)"
  | notDirectory => "Not a directory (os error 20)"
  | isDirectory => "Is a directory (os error 21)"
  | notText => "stream did not contain valid UTF-8"
  | system reason => reason

/-- Whether the path leads nowhere. -/
def isAbsence : FileError → Bool
  | notFound | notDirectory => true
  | isDirectory | notText | system _ => false

end FileError

/- Contents are compared as the core library compares them. -/
attribute [local instance (2000)] ByteArray.instDecidableEq

/-- A file or a directory. -/
inductive FileEntry where
  | file (content : ByteArray)
  | directory
deriving DecidableEq

/-- The names from the root down to an entry. -/
abbrev Location := List String

/-- Files and directories by location, and the location where relative paths begin. -/
structure FileTree where
  entries : List (Location × FileEntry) := []
  working : Location := []

namespace FilePath

/-- The steps of a path. A slash at its end asks for a directory, like a step to `.`. -/
def steps (path : String) : List String :=
  let names := (Text.split '/' path.toList).map String.ofList
  let asked := if names.getLast? = some "" ∧ 1 < names.length then ["."] else []
  names.filter (· ≠ "") ++ asked

/-- Whether a path begins at the root. -/
def isAbsolute (path : String) : Bool :=
  path.toList.head? = some '/'

/-- The steps that change the location. -/
def names (path : String) : List String :=
  (steps path).filter (· ≠ ".")

/-- The name of what a path leads to; none if the path ends with a step upwards or has no names. -/
def fileName? (path : String) : Option String :=
  (names path).getLast?.filter (· ≠ "..")

end FilePath

namespace FileTree

/-- The entry at a location. -/
def get? (tree : FileTree) : Location → Option FileEntry
  | [] => some .directory
  | location => tree.entries.lookup location

/-- The location that one step leads to. -/
def step (tree : FileTree) (location : Location) (name : String) : Except FileError Location :=
  match tree.get? location with
  | some .directory =>
      if name = "." then .ok location
      else if name = ".." then .ok location.dropLast
      else .ok (location ++ [name])
  | some (.file _) => .error .notDirectory
  | none => .error .notFound

/-- Where a path begins. -/
def start (tree : FileTree) (path : String) : Location :=
  if FilePath.isAbsolute path then [] else tree.working

/-- The location that a path leads to, whether or not there is an entry. -/
def locate (tree : FileTree) (path : String) : Except FileError Location :=
  if path = "" then .error .notFound
  else (FilePath.steps path).foldlM tree.step (tree.start path)

/-- The entry that a path leads to. -/
def find (tree : FileTree) (path : String) : Except FileError FileEntry := do
  match tree.get? (← tree.locate path) with
  | some entry => .ok entry
  | none => .error .notFound

/-- Whether a path leads to a file or a directory. -/
def contains (tree : FileTree) (path : String) : Bool :=
  (tree.find path).isOk

/-- The text of the file that a path leads to. -/
def readText (tree : FileTree) (path : String) : Except FileError String := do
  match ← tree.find path with
  | .directory => .error .isDirectory
  | .file content =>
      match String.fromUTF8? content with
      | some text => .ok text
      | none => .error .notText

/-- The tree with this entry at a location, in place of what was there. -/
def put (tree : FileTree) (location : Location) (entry : FileEntry) : FileTree :=
  { tree with entries := (location, entry) :: tree.entries }

/-- The location where a path makes a file. The directories on the way must exist. A path that ends
with a slash, `.` or `..` can only mean a directory. -/
def target (tree : FileTree) (path : String) : Except FileError Location :=
  match (FilePath.steps path).reverse with
  | [] => .error .notFound
  | last :: before => do
      let asked := path.toList.getLast? = some '/'
      let parents := if asked then before.tail else before
      let parent ← parents.reverse.foldlM tree.step (tree.start path)
      let name := if asked then before.head?.getD "." else last
      let location ← tree.step parent name
      if asked ∨ name = "." ∨ name = ".." then .error .isDirectory
      else if tree.get? location = some .directory then .error .isDirectory
      else .ok location

/-- The tree after a text has been written to the file that a path leads to. The file is made if it
does not exist; otherwise its content is replaced. -/
def writeText (tree : FileTree) (path text : String) : Except FileError FileTree := do
  return tree.put (← tree.target path) (.file text.toUTF8)

/-- What was put at a location is found there, unless it is the root. -/
theorem get?_put_self (tree : FileTree) (location : Location) (entry : FileEntry)
    (notRoot : location ≠ []) : (tree.put location entry).get? location = some entry := by
  cases location with
  | nil => exact absurd rfl notRoot
  | cons name rest => simp [get?, put]

/-- Putting an entry at one location does not change another. -/
theorem get?_put_of_ne (tree : FileTree) {location other : Location} (entry : FileEntry)
    (different : other ≠ location) : (tree.put location entry).get? other = tree.get? other := by
  cases other with
  | nil => rfl
  | cons name rest =>
      have unequal : (name :: rest == location) = false := beq_eq_false_iff_ne.mpr different
      simp only [get?, put, List.lookup_cons, unequal]

end FileTree

end MenuPlan

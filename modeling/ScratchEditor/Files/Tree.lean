import ScratchEditor.Text.Utf8

/-!
# Files

Scripts and settings live in a tree of files.  A path names an entry by the
directories on the way to it; what stands in the way of reading or writing it is
the cause of a failure.

Main definitions:

- `FileTree` with `lookup?`, `read` and `write`.
- `FileTree.locate`: the entry a path leads to.
- `FileTree.written`: the files in which two trees differ.
- `FileError` with its wording.
-/

namespace ScratchEditor

/-- Why a file cannot be used. -/
inductive FileError
  | notFound
  | badFormat
  | denied
  | notDirectory
  | isDirectory
  | nameTooLong
  | nulInName
deriving DecidableEq

/-- How the system words a failure. -/
def FileError.words : FileError → String
  | .notFound => "No such file or directory"
  | .badFormat => "Exec format error"
  | .denied => "Permission denied"
  | .notDirectory => "Not a directory"
  | .isDirectory => "Is a directory"
  | .nameTooLong => "File name too long"
  | .nulInName => "file name contained an unexpected NUL byte"

/-- The number the system gives a failure, if it is the system that reports it. -/
def FileError.number? : FileError → Option String
  | .notFound => some "2"
  | .badFormat => some "8"
  | .denied => some "13"
  | .notDirectory => some "20"
  | .isDirectory => some "21"
  | .nameTooLong => some "36"
  | .nulInName => none

/-- The words of a failure with its number. -/
def FileError.message (error : FileError) : String :=
  match error.number? with
  | some number => error.words ++ " (os error " ++ number ++ ")"
  | none => error.words

/-- A program that the system provides. -/
inductive Program
  | shell
  | cat
  | echo
  | env
  | kill
  | printf
  | sleep
  | test
  | succeed
  | fail
deriving DecidableEq

/-- What a path may lead to. -/
inductive FileEntry
  | directory
  /-- A file with its bytes; whether it may be run as a program. -/
  | file (bytes : Bytes) (runnable : Bool)
  | program (program : Program)
  /-- A place that swallows what is written to it and holds nothing. -/
  | void
deriving DecidableEq

/-- The names on the way from the root to an entry. -/
abbrev TreePath :=
  List Text

/-- A tree of files by their paths; the root is always a directory. -/
structure FileTree where
  entries : List (TreePath × FileEntry)

namespace FileTree

/-- A tree without files. -/
def empty : FileTree :=
  ⟨[]⟩

/-- The entry of a path. -/
def lookup? (tree : FileTree) (path : TreePath) : Option FileEntry :=
  if path.isEmpty then some .directory
  else (tree.entries.find? (·.1 == path)).map (·.2)

/-- The tree with an entry at a path, in place of the one that was there. -/
def set (tree : FileTree) (path : TreePath) (entry : FileEntry) : FileTree :=
  ⟨(path, entry) :: tree.entries.filter (·.1 != path)⟩

/-! ## Paths -/

/-- The parts of a text between its slashes. -/
def splitAtSlashes : Text → List Text
  | [] => [[]]
  | c :: rest =>
    if c = '/' then [] :: splitAtSlashes rest
    else
      match splitAtSlashes rest with
      | [] => [[c]]
      | part :: more => (c :: part) :: more

/-- The bytes a name takes in UTF-8. -/
def nameBytes (name : Text) : Nat :=
  (Utf8.encode name).length

/-- The path a name leads to from a directory. -/
def step (here : TreePath) (name : Text) : TreePath :=
  if name = ['.'] then here
  else if name = ['.', '.'] then here.dropLast
  else here ++ [name]

/-- Follows names from a directory; only the last name may lead to something else. -/
def follow (tree : FileTree) (here : TreePath) : List Text → Except FileError TreePath
  | [] => .ok here
  | name :: rest =>
    match tree.lookup? here with
    | some .directory =>
      if 255 < nameBytes name then .error .nameTooLong else follow tree (step here name) rest
    | some _ => .error .notDirectory
    | none => .error .notFound

/-- The names in a text, and the directory they begin in. -/
def namesFrom (working : TreePath) (text : Text) : TreePath × List Text :=
  (if text.head? = some '/' then [] else working, (splitAtSlashes text).filter (!·.isEmpty))

/-- The path a text leads to, and whether the text asks for a directory. -/
def locate (tree : FileTree) (working : TreePath) (text : Text) :
    Except FileError (TreePath × Bool) := do
  if text.contains '\x00' then throw .nulInName
  if text.isEmpty then throw .notFound
  let (start, names) := namesFrom working text
  return (← tree.follow start names, text.getLast? = some '/')

/-- The paths on the way of a text, from the directory it begins in. -/
def waypoints (working : TreePath) (text : Text) : List TreePath :=
  let (start, names) := namesFrom working text
  let way := names.foldl (fun (here, passed) name => (step here name, step here name :: passed))
    (start, [start])
  way.2.reverse

/-- The text of a path from the root. -/
def pathText (path : TreePath) : Text :=
  if path.isEmpty then ['/'] else path.flatMap ('/' :: ·)

/-! ## Reading and writing -/

/-- The entry that a text leads to. -/
def entryAt (tree : FileTree) (working : TreePath) (text : Text) : Except FileError FileEntry := do
  let (path, asDirectory) ← tree.locate working text
  match tree.lookup? path with
  | none => throw .notFound
  | some .directory => return .directory
  | some entry => if asDirectory then throw .notDirectory else return entry

/-- The bytes of a file. -/
def read (tree : FileTree) (working : TreePath) (text : Text) : Except FileError Bytes := do
  match ← tree.entryAt working text with
  | .directory => throw .isDirectory
  | .file bytes _ => return bytes
  | .program _ => return []
  | .void => return []

/-- Puts bytes into a file, which may be new; a file keeps whether it may be run. -/
def write (tree : FileTree) (working : TreePath) (text : Text) (bytes : Bytes) :
    Except FileError FileTree := do
  let (path, asDirectory) ← tree.locate working text
  match tree.lookup? path with
  | some .directory => throw .isDirectory
  | some .void => if asDirectory then throw .notDirectory else return tree
  | some (.program _) => if asDirectory then throw .notDirectory else throw .denied
  | some (.file _ runnable) =>
    if asDirectory then throw .notDirectory else return tree.set path (.file bytes runnable)
  | none =>
    if tree.lookup? path.dropLast != some .directory then
      throw (if (tree.lookup? path.dropLast).isNone then .notFound else .notDirectory)
    else if asDirectory then throw .isDirectory
    else return tree.set path (.file bytes false)

/-- Whether a text leads to anything. -/
def has (tree : FileTree) (working : TreePath) (text : Text) : Bool :=
  match tree.entryAt working text with
  | .ok _ => true
  | .error _ => false

/-- The files of a tree whose bytes are not those of an earlier tree. -/
def written (earlier tree : FileTree) : List (TreePath × Bytes) :=
  tree.entries.filterMap fun (path, entry) =>
    match entry, earlier.lookup? path with
    | .file bytes _, some (.file before _) => if bytes = before then none else some (path, bytes)
    | .file bytes _, _ => some (path, bytes)
    | _, _ => none

@[simp]
theorem lookup?_nil (tree : FileTree) : tree.lookup? [] = some .directory :=
  rfl

/-- An entry that was set is found. -/
theorem lookup?_set {tree : FileTree} {path : TreePath} {entry : FileEntry}
    (h : path ≠ []) : (tree.set path entry).lookup? path = some entry := by
  simp [lookup?, set, h]

end FileTree

end ScratchEditor

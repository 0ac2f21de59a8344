import ScratchEditor.Files.Tree

/-!
# Finding and launching programs

A program is named by a path, or by a name that is looked for in some
directories.  A file that may be run begins with the path of the program that
interprets it, which is given the path of the file.

Main definitions:

- `FileTree.findProgram?`: the path of a program.
- `FileTree.launch`: the program behind a path and what it is given.
-/

namespace ScratchEditor

namespace FileTree

/-- The directories in which programs are looked for. -/
def programDirectories : List Text :=
  ["/usr/local/bin".toList, "/usr/bin".toList, "/bin".toList]

/-- Whether an entry may be run as a program. -/
def isRunnable : FileEntry → Bool
  | .file _ runnable => runnable
  | .program _ => true
  | .directory => false
  | .void => false

/-- Whether a path leads to a program. -/
def isProgram (tree : FileTree) (working : TreePath) (path : Text) : Bool :=
  match tree.entryAt working path with
  | .ok entry => isRunnable entry
  | .error _ => false

/-- Whether a name is a path of more than one part. -/
def isPathOfParts (name : Text) : Bool :=
  let parts := (splitAtSlashes name).filter (!·.isEmpty)
  1 < parts.length || (name.head? == some '/' && 0 < parts.length)

/-- The path of a program that is given by its path or its name. -/
def findProgram? (tree : FileTree) (working : TreePath) (name : Text) : Option Text :=
  if isPathOfParts name then
    if tree.isProgram working name then some name else none
  else
    (programDirectories.map (· ++ '/' :: name)).find? (tree.isProgram working)

/-! ## Launching -/

/-- The bytes of the mark before the path of an interpreter. -/
def interpreterMark : Bytes :=
  [35, 33]

/-- Whether a byte is a blank or a tabulator. -/
def isGap (b : UInt8) : Bool :=
  b == 32 || b == 9

/-- The interpreter named in the first line of a file, and the argument it is given there. -/
def interpreterLine? (bytes : Bytes) : Option (Text × List Text) :=
  if interpreterMark.isPrefixOf bytes then
    let line := (bytes.drop 2).takeWhile fun b => b != 10 && b != 0
    let line := ((line.dropWhile isGap).reverse.dropWhile isGap).reverse
    let path := line.takeWhile (!isGap ·)
    let argument := (line.drop path.length).dropWhile isGap
    if path.isEmpty then none
    else
      some (Utf8.decodeLossy path,
        if argument.isEmpty then [] else [Utf8.decodeLossy argument])
  else none

/-- How many interpreters may stand behind one another. -/
def interpreterDepth : Nat :=
  5

/-- The program behind a path and what it is given, through at most some interpreters. -/
def launchFrom (tree : FileTree) (working : TreePath) :
    Nat → Text → List Text → Except FileError (Program × List Text)
  | 0, _, _ => .error .badFormat
  | depth + 1, path, arguments => do
    match ← tree.entryAt working path with
    | .program program => return (program, arguments)
    | .file bytes true =>
      match interpreterLine? bytes with
      | some (interpreter, given) =>
        launchFrom tree working depth interpreter (given ++ path :: arguments)
      | none => throw .badFormat
    | _ => throw .denied

/-- The program behind a path and what it is given. -/
def launch (tree : FileTree) (working : TreePath) (path : Text) (arguments : List Text) :
    Except FileError (Program × List Text) :=
  launchFrom tree working interpreterDepth path arguments

/-! ## The system -/

/-- The programs that the system provides, by their names. -/
def systemPrograms : List (String × Program) :=
  [("sh", .shell), ("dash", .shell), ("bash", .shell), ("cat", .cat), ("echo", .echo),
    ("env", .env), ("kill", .kill), ("printf", .printf), ("sleep", .sleep), ("test", .test),
    ("[", .test), ("true", .succeed), ("false", .fail)]

/-- The directories of a system. -/
def systemDirectories : List TreePath :=
  [["bin"], ["dev"], ["tmp"], ["usr"], ["usr", "bin"]].map (·.map String.toList)

/-- The files of a system without scripts. -/
def system : FileTree :=
  let programs := systemPrograms.flatMap fun (name, program) =>
    [(["bin".toList, name.toList], FileEntry.program program),
      (["usr".toList, "bin".toList, name.toList], FileEntry.program program)]
  ⟨systemDirectories.map (·, FileEntry.directory) ++
    (["dev".toList, "null".toList], FileEntry.void) :: programs⟩

end FileTree

end ScratchEditor

import ScratchEditor.CommandLine.Execute

/-!
# The program

The files that the arguments are about are read, the program does what it is
asked for with them, and the files that changed are written.  What the program
does is decided by `Workspace.perform` alone.
-/

namespace ScratchEditor

namespace Console

/-- Whether there is a directory at a path. -/
def isDirectory (path : TreePath) : IO Bool := do
  match ← (IO.FS.realPath (String.ofList (FileTree.pathText path ++ ['/', '.']))).toBaseIO with
  | .ok _ => return true
  | .error _ => return false

/-- The entry at a path, if there is one that can be read. -/
def entry? (path : TreePath) : IO (Option FileEntry) := do
  if ← isDirectory path then return some .directory
  match ← (IO.FS.readBinFile (String.ofList (FileTree.pathText path))).toBaseIO with
  | .ok bytes => return some (.file bytes.data.toList false)
  | .error _ => return none

/-- A tree with the entry at a path, unless the tree knows one. -/
def fetchEntry (tree : FileTree) (path : TreePath) : IO FileTree := do
  if (tree.lookup? path).isSome then return tree
  match ← entry? path with
  | some entry => return tree.set path entry
  | none => return tree

/-- A tree with all that is on the way of a text. -/
def fetch (working : TreePath) (tree : FileTree) (text : Text) : IO FileTree :=
  (FileTree.waypoints working text).foldlM fetchEntry tree

/-- Writes the bytes of a file; one that cannot be written stays as it is. -/
def store (path : TreePath) (bytes : Bytes) : IO Unit := do
  let name := String.ofList (FileTree.pathText path)
  let _ ← (IO.FS.writeBinFile name (ByteArray.mk bytes.toArray)).toBaseIO

/-- The directory for temporary files. -/
def temporary : IO Text := do
  return ((← IO.getEnv "TMPDIR").getD "/tmp").toList

/-- The files that the arguments are about, with the directory that scripts are written to. -/
def workspaceFor (standardConfig : Text) (arguments : List Text) : IO Workspace := do
  let (_, working) := FileTree.namesFrom [] (toString (← IO.currentDir)).toList
  let temporary ← temporary
  let files ← fetch working FileTree.system (FileTree.pathText working)
  match (Request.ofArguments arguments).files standardConfig with
  | [] => return ⟨files, working, temporary⟩
  | config :: mentioned =>
    let files ← fetch working files config
    let (settings, _) := Settings.loadOrCreate files working config
    let places := settings.run.scriptPath temporary :: mentioned
    return ⟨← places.foldlM (fetch working) files, working, temporary⟩

/-- Does what the arguments ask for and gives the exit code. -/
def run (arguments : List Text) : IO UInt32 := do
  let standardConfig := Settings.pathBeside (toString (← IO.appPath)).toList
  let workspace ← workspaceFor standardConfig arguments
  let outcome := workspace.perform standardConfig arguments
  for (path, bytes) in FileTree.written workspace.files outcome.files do
    store path bytes
  let out ← IO.getStdout
  out.write (ByteArray.mk (Utf8.encode outcome.printed).toArray)
  out.flush
  return UInt32.ofNat outcome.code

end Console

end ScratchEditor

/-- The program on the command line. -/
def main (arguments : List String) : IO UInt32 :=
  ScratchEditor.Console.run (arguments.map String.toList)

import ScratchEditor.Files.Launch
import ScratchEditor.Run.Execution
import ScratchEditor.Run.Failure
import ScratchEditor.Settings.Basic

/-!
# Launching a script

The text is written to the file for scripts, and the interpreter is given the
path of that file.

Main definitions:

- `Workspace`: the files that the editor and its scripts see.
- `Workspace.launch`: runs a text as a script.
-/

namespace ScratchEditor

/-- The files that the editor and its scripts see, and where they are. -/
structure Workspace where
  files : FileTree
  /-- The directory in which relative paths begin. -/
  working : TreePath
  /-- The directory for temporary files. -/
  temporary : Text

namespace Workspace

/-- Writes a script to its file. -/
def writeScript (workspace : Workspace) (settings : RunSettings) (text : Text) :
    Except RunError Workspace :=
  let path := settings.scriptPath workspace.temporary
  match workspace.files.write workspace.working path (Utf8.encode text) with
  | .ok files => .ok { workspace with files := files }
  | .error cause => .error (.scriptNotWritten path cause)

/-- The path of the interpreter, which has to be a program that can be launched. -/
def findInterpreter (workspace : Workspace) (settings : RunSettings) : Except RunError Text :=
  match workspace.files.findProgram? workspace.working settings.interpreter with
  | none => .error (.noInterpreter settings.interpreter)
  | some program =>
    match workspace.files.launch workspace.working program [] with
    | .ok _ => .ok program
    | .error cause => .error (.notLaunched settings.interpreter cause)

/-- Runs a text as a script: what the run looks like, and the files afterwards.  The script stays
written when the interpreter cannot be launched. -/
def launch (workspace : Workspace) (settings : RunSettings) (text : Text) :
    Except RunError Execution × Workspace :=
  match workspace.writeScript settings text with
  | .error error => (.error error, workspace)
  | .ok written =>
    match written.findInterpreter settings with
    | .error error => (.error error, written)
    | .ok program =>
      let shell := (Shell.start written.files written.working).runCommand
        [program, settings.scriptPath written.temporary]
      (.ok (Execution.ofShell shell), { written with files := shell.files })

end Workspace

end ScratchEditor

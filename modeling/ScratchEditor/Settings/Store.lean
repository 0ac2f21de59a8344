import ScratchEditor.Files.Tree
import ScratchEditor.Settings.Format
import ScratchEditor.Settings.Tidy

/-!
# Settings files

Settings are read from a file.  A file that is not there is created with the
defaults, if its directory exists; one that cannot be understood is left alone
and the defaults are used.

Main definitions:

- `Settings.ofBytes`: the settings that the bytes of a file stand for.
- `Settings.pathBeside`: where the settings are unless another place is named.
- `Settings.loadOrCreate` and `Settings.save`.
-/

namespace ScratchEditor

namespace Settings

/-- The name of the file of settings. -/
def fileName : Text :=
  "scriptpad.json".toList

/-- The path of the settings that lie beside a program. -/
def pathBeside (program : Text) : Text :=
  (program.reverse.dropWhile (· != '/')).reverse ++ fileName

/-- The settings that the bytes of a file stand for, if they are understood. -/
def ofBytes? (bytes : Bytes) : Option Settings := do
  Settings.parse? (← Utf8.decode? bytes)

/-- The settings that the bytes of a file stand for, tidied, or the defaults. -/
def ofBytes (bytes : Bytes) : Settings :=
  ((ofBytes? bytes).getD standard).tidy

/-- Writes settings to a file. -/
def save (settings : Settings) (tree : FileTree) (working : TreePath) (path : Text) :
    Except FileError FileTree :=
  tree.write working path (Utf8.encode settings.print)

/-- The settings of a file, which is created with the defaults if there is none. -/
def loadOrCreate (tree : FileTree) (working : TreePath) (path : Text) : Settings × FileTree :=
  if tree.has working path then
    match tree.read working path with
    | .ok bytes => (ofBytes bytes, tree)
    | .error _ => (standard.tidy, tree)
  else
    match standard.save tree working path with
    | .ok created => (standard, created)
    | .error _ => (standard, tree)

/-- An existing file is never changed. -/
theorem tree_loadOrCreate_of_has {tree : FileTree} {working : TreePath} {path : Text}
    (h : tree.has working path = true) : (loadOrCreate tree working path).2 = tree := by
  simp only [loadOrCreate, h, if_true]
  split <;> rfl

end Settings

end ScratchEditor

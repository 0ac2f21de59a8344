import ScratchEditor.Proofs.Files.Tree
import ScratchEditor.Proofs.Settings.RoundTrip
import ScratchEditor.Proofs.Utf8.Lossy
import ScratchEditor.Settings.Store

/-!
# Saved settings are loaded

A file of settings holds the bytes of their text.  Where it could be written there is a file
afterwards, so loading reads these bytes and finds the settings in them.  A place that swallows
what is written to it keeps no file and is left out.

Main results:

- `Settings.ofBytes_encode_print`: the bytes that are saved stand for the settings, tidied.
- `Settings.loadOrCreate_save`: settings are read back from their text and from their file.
-/

namespace ScratchEditor

namespace Settings

/-- The bytes that are saved stand for the settings, tidied. -/
theorem ofBytes_encode_print {settings : Settings} (h : settings.InRange) :
    ofBytes (Utf8.encode settings.print) = settings.tidy := by
  have hread : ofBytes? (Utf8.encode settings.print) = some settings := by
    rw [ofBytes?, Utf8.decode?_encode, Option.bind_eq_bind, Option.bind_some, parse?_print h]
  rw [ofBytes, hread, Option.getD_some]

/-- What can be read is loaded, and left alone. -/
theorem loadOrCreate_of_read {tree : FileTree} {working : TreePath} {path : Text} {bytes : Bytes}
    (h : tree.read working path = .ok bytes) :
    loadOrCreate tree working path = (ofBytes bytes, tree) := by
  have hhas : tree.has working path = true := by
    unfold FileTree.read at h
    unfold FileTree.has
    cases hentry : tree.entryAt working path with
    | ok entry => rfl
    | error error =>
      rw [hentry] at h
      cases h
  rw [loadOrCreate, if_pos hhas, h]

/-- A file of settings is loaded as its bytes are read, and left alone. -/
theorem loadOrCreate_of_entryAt {tree : FileTree} {working : TreePath} {path : Text}
    {bytes : Bytes} {runnable : Bool}
    (h : tree.entryAt working path = .ok (.file bytes runnable)) :
    loadOrCreate tree working path = (ofBytes bytes, tree) := by
  have hread : tree.read working path = .ok bytes := by
    rw [FileTree.read, h]
    rfl
  exact loadOrCreate_of_read hread

/--
Settings are read back from the text that is saved.  Once they have been written, unless to a
place that swallows everything, loading the file gives the settings, tidied.
-/
theorem loadOrCreate_save {settings : Settings} (h : settings.InRange) :
    Settings.parse? settings.print = some settings ∧
      ∀ (tree saved : FileTree) (working : TreePath) (path : Text),
        tree.entryAt working path ≠ .ok .void → settings.save tree working path = .ok saved →
          loadOrCreate saved working path = (settings.tidy, saved) := by
  refine ⟨parse?_print h, ?_⟩
  intro tree saved working path hvoid hsave
  obtain ⟨runnable, hentry⟩ := FileTree.entryAt_write hsave hvoid
  rw [loadOrCreate_of_entryAt hentry, ofBytes_encode_print h]

/-- Settings with escapes, a width near the limit and a translucent color are saved in a tree
without files, and loaded from it. -/
theorem loadOrCreate_save_escapes :
    let settings : Settings :=
      { standard with
        editor := { EditorSettings.standard with
          indentUnit := .spaces 18446744073709551615 }
        run := { RunSettings.standard with
          interpreter := "\"sw\\ift\"\n\x01é".toList
          scriptDirectory := some "/home/\x7f\t𝄞".toList
          maxOutputChars := 0 }
        theme := { Theme.standard with
          tokens := { TokenColors.standard with text := ⟨1, 2, 3, 0⟩ } }
        keywords := ["".toList, "let".toList, " let".toList] }
    let path := "settings.json".toList
    settings.InRange ∧ FileTree.empty.entryAt [] path ≠ .ok .void ∧
      ∃ saved, settings.save .empty [] path = .ok saved ∧
        Settings.parse? settings.print = some settings ∧
          loadOrCreate saved [] path = (settings.tidy, saved) := by
  intro settings path
  have hrange : settings.InRange := ⟨by decide, by decide⟩
  have hvoid : FileTree.empty.entryAt [] path ≠ .ok .void := by decide
  have hsave : settings.save .empty [] path =
      .ok (FileTree.empty.set [path] (.file (Utf8.encode settings.print) false)) := rfl
  obtain ⟨hparse, hload⟩ := loadOrCreate_save hrange
  exact ⟨hrange, hvoid, _, hsave, hparse, hload _ _ [] path hvoid hsave⟩

end Settings

end ScratchEditor

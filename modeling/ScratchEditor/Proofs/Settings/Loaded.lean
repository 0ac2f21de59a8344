import ScratchEditor.Proofs.Settings.Saved

/-!
# What loading settings leaves behind

Whatever stands where settings are looked for, settings are loaded, and they are tidy: what is
read is tidied, tidying twice is tidying once, and the defaults are tidy.  A file that is there
is left alone.  One that is missing is written where its directory is there, and is read back
as the defaults.  So loading once more finds the same settings and leaves the same files.

Main results:

- `Settings.tidy_tidy`: tidying twice is tidying once.
- `Settings.loadOrCreate_of_hasPlace` and `Settings.loadOrCreate_of_not_hasPlace`: loading a file
  that is missing.
- `Settings.loadOrCreate_loaded`: the settings and the files after loading, in every case.
-/

namespace ScratchEditor

/-! ## Tidying twice -/

theorem nameOr_nameOr (default_ name : Text) :
    nameOr default_ (nameOr default_ name) = nameOr default_ name := by
  by_cases hblank : name.trim.isEmpty = true
  · have hname : nameOr default_ name = default_ := if_pos hblank
    rw [hname]
    exact ite_self _
  · have hname : nameOr default_ name = name := if_neg hblank
    rw [hname, hname]

/-- Keywords that were kept are kept again, since those before them are the same. -/
theorem tidyKeywordsFrom_tidyKeywordsFrom (seen keywords : List Text) :
    tidyKeywordsFrom seen (tidyKeywordsFrom seen keywords) = tidyKeywordsFrom seen keywords := by
  induction keywords generalizing seen with
  | nil => rfl
  | cons keyword rest ih =>
    rw [tidyKeywordsFrom]
    split_ifs with hkept
    · rw [tidyKeywordsFrom, if_pos hkept, ih]
    · exact ih seen

theorem RunSettings.tidy_tidy (settings : RunSettings) : settings.tidy.tidy = settings.tidy := by
  simp [RunSettings.tidy, nameOr_nameOr]

namespace Settings

/-- Tidying twice is tidying once. -/
theorem tidy_tidy (settings : Settings) : settings.tidy.tidy = settings.tidy := by
  simp [Settings.tidy, RunSettings.tidy_tidy, tidyKeywords, tidyKeywordsFrom_tidyKeywordsFrom]

/-- The defaults are tidy. -/
theorem tidy_standard : standard.tidy = standard := by
  decide +kernel

theorem inRange_standard : standard.InRange :=
  ⟨by decide, by decide⟩

/-! ## Loading -/

/-- What the bytes of a file stand for is tidy. -/
theorem tidy_ofBytes (bytes : Bytes) : (ofBytes bytes).tidy = ofBytes bytes :=
  tidy_tidy _

/-- Bytes that are not understood stand for the defaults. -/
theorem ofBytes_of_none {bytes : Bytes} (h : ofBytes? bytes = none) : ofBytes bytes = standard := by
  rw [ofBytes, h, Option.getD_none, tidy_standard]

section

variable {tree : FileTree} {working : TreePath} {path : Text}

/-- Something that is there and cannot be read is loaded as the defaults. -/
theorem loadOrCreate_of_not_read (hhas : tree.has working path = true) {error : FileError}
    (h : tree.read working path = .error error) :
    loadOrCreate tree working path = (standard, tree) := by
  rw [loadOrCreate, if_pos hhas, h, tidy_standard]

/-- Settings are saved where a file is missing whose directory is there. -/
theorem save_of_hasPlace (hhas : tree.has working path = false) {place : TreePath}
    (hplace : tree.HasPlace working path place) (settings : Settings) :
    settings.save tree working path =
      .ok (tree.set place (.file (Utf8.encode settings.print) false)) :=
  (FileTree.write_eq_ok_iff hhas).mpr ⟨place, hplace, rfl⟩

/-- A file that is missing is created with the defaults where its directory is there. -/
theorem loadOrCreate_of_hasPlace (hhas : tree.has working path = false) {place : TreePath}
    (hplace : tree.HasPlace working path place) :
    loadOrCreate tree working path =
      (standard, tree.set place (.file (Utf8.encode standard.print) false)) := by
  rw [loadOrCreate, hhas, save_of_hasPlace hhas hplace]
  rfl

/-- Nothing is written where the directory of a file is missing. -/
theorem loadOrCreate_of_not_hasPlace (hhas : tree.has working path = false)
    (hplace : ∀ place, ¬ tree.HasPlace working path place) :
    loadOrCreate tree working path = (standard, tree) := by
  rw [loadOrCreate, hhas]
  cases hsave : standard.save tree working path with
  | error error => rfl
  | ok written =>
    obtain ⟨place, hwritten, -⟩ := (FileTree.write_eq_ok_iff hhas).mp hsave
    exact absurd hwritten (hplace place)

/-- Where a file was created it is read. -/
theorem read_loadOrCreate (hhas : tree.has working path = false) {place : TreePath}
    (hplace : tree.HasPlace working path place) :
    (loadOrCreate tree working path).2.read working path =
      .ok (Utf8.encode standard.print) := by
  have hsave := save_of_hasPlace hhas hplace standard
  have hvoid : tree.entryAt working path ≠ .ok .void := by
    intro hentry
    rw [FileTree.has, hentry] at hhas
    cases hhas
  obtain ⟨runnable, hentry⟩ := FileTree.entryAt_write hsave hvoid
  rw [loadOrCreate_of_hasPlace hhas hplace, FileTree.read, hentry]
  rfl

/-- What loading does, by what stands where the settings are looked for. -/
theorem loadOrCreate_cases (tree : FileTree) (working : TreePath) (path : Text) :
    (∃ bytes, tree.read working path = .ok bytes ∧
      loadOrCreate tree working path = (ofBytes bytes, tree)) ∨
    (∃ place, tree.has working path = false ∧ tree.HasPlace working path place ∧
      loadOrCreate tree working path =
        (standard, tree.set place (.file (Utf8.encode standard.print) false))) ∨
    loadOrCreate tree working path = (standard, tree) := by
  cases hhas : tree.has working path with
  | true =>
    cases hread : tree.read working path with
    | ok bytes => exact Or.inl ⟨bytes, rfl, loadOrCreate_of_read hread⟩
    | error error => exact Or.inr (Or.inr (loadOrCreate_of_not_read hhas hread))
  | false =>
    by_cases hplace : ∃ place, tree.HasPlace working path place
    · obtain ⟨place, hplace⟩ := hplace
      exact Or.inr (Or.inl ⟨place, rfl, hplace, loadOrCreate_of_hasPlace hhas hplace⟩)
    · exact Or.inr (Or.inr (loadOrCreate_of_not_hasPlace hhas (not_exists.mp hplace)))

/-- What is loaded is tidy. -/
theorem tidy_loadOrCreate (tree : FileTree) (working : TreePath) (path : Text) :
    (loadOrCreate tree working path).1.tidy = (loadOrCreate tree working path).1 := by
  rcases loadOrCreate_cases tree working path with
    ⟨bytes, -, hload⟩ | ⟨place, -, -, hload⟩ | hload
  · rw [hload]
    exact tidy_ofBytes bytes
  · rw [hload]
    exact tidy_standard
  · rw [hload]
    exact tidy_standard

/-- Loading once more finds the same settings and leaves the same files. -/
theorem loadOrCreate_twice (tree : FileTree) (working : TreePath) (path : Text) :
    loadOrCreate (loadOrCreate tree working path).2 working path =
      loadOrCreate tree working path := by
  rcases loadOrCreate_cases tree working path with
    ⟨bytes, -, hload⟩ | ⟨place, hhas, hplace, hload⟩ | hload
  · rw [hload]
    exact hload
  · rw [loadOrCreate_of_read (read_loadOrCreate hhas hplace), ofBytes_encode_print inRange_standard,
      tidy_standard, hload]
  · rw [hload]
    exact hload

end

/--
Loading always gives tidy settings, and loading once more gives the same settings and the same
files.  What is there is left alone: if it is read, the settings are those of its text, tidied,
or the defaults if it is no text in UTF-8 or its text is not understood.  What is missing is
created with the text of the defaults where its directory is there; where this is missing
nothing is written.  In both cases the settings are the defaults.
-/
theorem loadOrCreate_loaded (tree : FileTree) (working : TreePath) (path : Text) :
    let loaded := loadOrCreate tree working path
    loaded.1.tidy = loaded.1 ∧
      loadOrCreate loaded.2 working path = loaded ∧
      (tree.has working path = true → loaded.2 = tree) ∧
      (∀ bytes, tree.read working path = .ok bytes →
        loaded.2 = tree ∧ (Utf8.decode? bytes = none → loaded.1 = standard) ∧
        ∀ text, Utf8.decode? bytes = some text →
          (Settings.parse? text = none → loaded.1 = standard) ∧
          ∀ settings, Settings.parse? text = some settings → loaded.1 = settings.tidy) ∧
      (tree.has working path = false →
        (∀ place, tree.HasPlace working path place →
          loaded = (standard, tree.set place (.file (Utf8.encode standard.print) false)) ∧
          loaded.2.read working path = .ok (Utf8.encode standard.print)) ∧
        ((∀ place, ¬ tree.HasPlace working path place) → loaded = (standard, tree))) := by
  intro loaded
  refine ⟨tidy_loadOrCreate tree working path, loadOrCreate_twice tree working path,
    tree_loadOrCreate_of_has, ?_, ?_⟩
  · intro bytes hread
    have hload : loaded = (ofBytes bytes, tree) := loadOrCreate_of_read hread
    rw [hload]
    refine ⟨rfl, fun hdecode => ofBytes_of_none (by rw [ofBytes?, hdecode]; rfl), ?_⟩
    intro text hdecode
    have hbytes : ofBytes? bytes = Settings.parse? text := by
      rw [ofBytes?, hdecode]
      rfl
    refine ⟨fun hparse => ofBytes_of_none (hbytes.trans hparse), ?_⟩
    intro settings hparse
    rw [ofBytes, hbytes, hparse, Option.getD_some]
  · intro hhas
    exact ⟨fun place hplace =>
      ⟨loadOrCreate_of_hasPlace hhas hplace, read_loadOrCreate hhas hplace⟩,
      loadOrCreate_of_not_hasPlace hhas⟩

end Settings

end ScratchEditor

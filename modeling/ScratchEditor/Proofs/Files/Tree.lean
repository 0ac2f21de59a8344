import Mathlib.Data.List.Basic
import ScratchEditor.Files.Tree

/-!
# What is written is read

A path is followed through directories only, and writing puts a file where there was no
directory.  So no way through the tree passes the written entry, and a path leads where it led
before.

Main definitions:

- `FileTree.HasPlace`: a place in a directory that is there.

Main results:

- `FileTree.follow_set`: putting a file in place leaves the ways through a tree as they are.
- `FileTree.entryAt_write`: a path that was written leads to a file with what was written.
- `FileTree.write_eq_ok_iff`: a file that is missing is written where its directory is there.
-/

namespace ScratchEditor

namespace FileTree

variable {tree : FileTree} {working : TreePath} {text : Text}

/-- The entries of other paths are left alone. -/
theorem lookup?_set_of_ne {path other : TreePath} (entry : FileEntry) (h : other ≠ path) :
    (tree.set path entry).lookup? other = tree.lookup? other := by
  have hne : (path == other) = false := beq_false_of_ne h.symm
  have hfind : (tree.entries.filter (·.1 != path)).find? (·.1 == other) =
      tree.entries.find? (·.1 == other) := by
    rw [List.find?_filter]
    congr 1
    funext item
    by_cases heq : item.1 = other
    · simp [heq, h]
    · simp [heq]
  simp [lookup?, set, hne, hfind]

/-- A way goes on through a directory, by a name that is not too long. -/
theorem follow_cons_eq_ok_iff {here final : TreePath} {name : Text} {names : List Text} :
    tree.follow here (name :: names) = .ok final ↔
      tree.lookup? here = some .directory ∧ nameBytes name ≤ 255 ∧
        tree.follow (step here name) names = .ok final := by
  rw [follow]
  split
  case h_1 hhere =>
    by_cases hlong : 255 < nameBytes name
    · simp [hlong, Nat.not_le_of_lt hlong]
    · simp [hlong, hhere, Nat.le_of_not_lt hlong]
  case h_2 entry hother hhere =>
    have hne : entry ≠ .directory := hother
    simp [hhere, hne]
  case h_3 hhere => simp [hhere]

/-- Putting something in place of no directory leaves the ways through a tree as they are. -/
theorem follow_set {path here final : TreePath} {names : List Text} (entry : FileEntry)
    (hpath : tree.lookup? path ≠ some .directory) (h : tree.follow here names = .ok final) :
    (tree.set path entry).follow here names = .ok final := by
  induction names generalizing here with
  | nil => exact h
  | cons name names ih =>
    obtain ⟨hhere, hshort, hrest⟩ := follow_cons_eq_ok_iff.mp h
    have hne : here ≠ path := fun heq => hpath (heq ▸ hhere)
    rw [follow_cons_eq_ok_iff, lookup?_set_of_ne entry hne]
    exact ⟨hhere, hshort, ih hrest⟩

/-- A text that is a path leads where its names lead. -/
theorem locate_eq_ok_iff {final : TreePath × Bool} :
    tree.locate working text = .ok final ↔
      '\x00' ∉ text ∧ text ≠ [] ∧
        tree.follow (namesFrom working text).1 (namesFrom working text).2 = .ok final.1 ∧
          decide (text.getLast? = some '/') = final.2 := by
  simp only [locate, throw, throwThe, MonadExceptOf.throw, bind, Except.bind, pure, Except.pure]
  by_cases hnul : '\x00' ∈ text
  · simp [hnul]
  · by_cases hempty : text = []
    · simp [hempty]
    · cases tree.follow (namesFrom working text).1 (namesFrom working text).2 with
      | error error => simp [hnul, hempty]
      | ok path => simp [hnul, hempty, Prod.ext_iff]

/-- Putting something in place of no directory leaves the path of a text as it is. -/
theorem locate_set {path : TreePath} {final : TreePath × Bool} (entry : FileEntry)
    (hpath : tree.lookup? path ≠ some .directory) (h : tree.locate working text = .ok final) :
    (tree.set path entry).locate working text = .ok final := by
  rw [locate_eq_ok_iff] at h ⊢
  exact ⟨h.1, h.2.1, follow_set entry hpath h.2.2.1, h.2.2.2⟩

/-- Writing leaves a place that swallows everything as it is, or puts a file in place. -/
theorem write_cases {bytes : Bytes} {written : FileTree}
    (h : tree.write working text bytes = .ok written) :
    (tree.entryAt working text = .ok .void ∧ written = tree) ∨
      ∃ path runnable, tree.locate working text = .ok (path, false) ∧
        tree.lookup? path ≠ some .directory ∧ written = tree.set path (.file bytes runnable) := by
  unfold write at h
  cases hlocate : tree.locate working text with
  | error error =>
    rw [hlocate] at h
    cases h
  | ok final =>
    obtain ⟨path, asDirectory⟩ := final
    rw [hlocate] at h
    simp only [bind, Except.bind] at h
    split at h
    case h_1 => cases h
    case h_2 hentry =>
      split_ifs at h with hslash
      cases h
      left
      simp [entryAt, hlocate, hentry, hslash, bind, Except.bind, pure, Except.pure]
    case h_3 => split_ifs at h
    case h_4 before runnable hentry =>
      split_ifs at h with hslash
      cases h
      exact Or.inr ⟨path, runnable, by simpa using hslash, by simp [hentry], rfl⟩
    case h_5 hentry =>
      split_ifs at h with hparent hslash
      cases h
      exact Or.inr ⟨path, false, by simpa using hslash, by simp [hentry], rfl⟩

/-- A path that was written leads to a file with what was written. -/
theorem entryAt_write {bytes : Bytes} {written : FileTree}
    (h : tree.write working text bytes = .ok written)
    (hvoid : tree.entryAt working text ≠ .ok .void) :
    ∃ runnable, written.entryAt working text = .ok (.file bytes runnable) := by
  rcases write_cases h with ⟨hentry, -⟩ | ⟨path, runnable, hlocate, hpath, rfl⟩
  · exact absurd hentry hvoid
  · have hne : path ≠ [] := by
      rintro rfl
      exact hpath (lookup?_nil tree)
    refine ⟨runnable, ?_⟩
    simp only [entryAt, locate_set _ hpath hlocate, bind, Except.bind, lookup?_set hne]
    rfl

/-! ## Missing files -/

/-- A text names a place in a directory that is there. -/
def HasPlace (tree : FileTree) (working : TreePath) (text : Text) (place : TreePath) : Prop :=
  tree.locate working text = .ok (place, false) ∧
    tree.lookup? place.dropLast = some .directory

/-- A text that leads to nothing names no entry, unless it asks for a directory. -/
theorem lookup?_eq_none_of_not_has (h : tree.has working text = false) {place : TreePath}
    (hlocate : tree.locate working text = .ok (place, false)) : tree.lookup? place = none := by
  cases hlookup : tree.lookup? place with
  | none => rfl
  | some entry =>
    have hentry : tree.entryAt working text = .ok entry := by
      rw [entryAt, hlocate]
      cases entry <;> simp [hlookup, bind, Except.bind, pure, Except.pure]
    rw [has, hentry] at h
    cases h

/-- Where nothing is in the way, writing asks for the directory only. -/
theorem write_of_missing {place : TreePath}
    (hlocate : tree.locate working text = .ok (place, false))
    (hlookup : tree.lookup? place = none) {bytes : Bytes} {written : FileTree} :
    tree.write working text bytes = .ok written ↔
      tree.lookup? place.dropLast = some .directory ∧
        written = tree.set place (.file bytes false) := by
  simp only [write, hlocate, bind, Except.bind, hlookup, bne_iff_ne, Bool.false_eq_true, if_false]
  by_cases hdirectory : tree.lookup? place.dropLast = some .directory
  · simp [hdirectory, pure, Except.pure, eq_comm]
  · simp [hdirectory, throw, throwThe, MonadExceptOf.throw]

/-- A file that is missing is written where its directory is there, and nowhere else. -/
theorem write_eq_ok_iff (h : tree.has working text = false) {bytes : Bytes} {written : FileTree} :
    tree.write working text bytes = .ok written ↔
      ∃ place, tree.HasPlace working text place ∧ written = tree.set place (.file bytes false) := by
  constructor
  · intro hwrite
    rcases write_cases hwrite with ⟨hentry, -⟩ | ⟨place, -, hlocate, -⟩
    · rw [has, hentry] at h
      cases h
    · obtain ⟨hdirectory, hwritten⟩ :=
        (write_of_missing hlocate (lookup?_eq_none_of_not_has h hlocate)).mp hwrite
      exact ⟨place, ⟨hlocate, hdirectory⟩, hwritten⟩
  · rintro ⟨place, ⟨hlocate, hdirectory⟩, hwritten⟩
    exact (write_of_missing hlocate (lookup?_eq_none_of_not_has h hlocate)).mpr
      ⟨hdirectory, hwritten⟩

/-- In a tree without files there is a place in the root, but none in a directory. -/
example : empty.HasPlace [] "/a".toList [['a']] ∧
    ∀ place, ¬ empty.HasPlace [] "/a/b".toList place := by
  refine ⟨⟨rfl, rfl⟩, ?_⟩
  rintro place ⟨hlocate, -⟩
  cases hlocate

end FileTree

end ScratchEditor

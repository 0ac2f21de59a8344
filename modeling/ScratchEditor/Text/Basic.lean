/-!
# Texts and extents

A text is the list of its characters, and every offset the editor hands out
counts characters.  An extent is a stretch of a text given by its first offset
and its length.

Main definitions:

- `Text`: the characters of a text in order.
- `Extent`: a start offset with a length, with the relation `holds` that links,
  selections and spans share.
- `Extent.reach` and `Extent.touched`: where an extent ends and which offset is
  its last one, as machine words have it.
- `Text.slice`: the characters an extent selects.
-/

namespace ScratchEditor

/-- A text is the list of its characters. -/
abbrev Text := List Char

/-- A stretch of a text: the offset of its first character and its length. -/
structure Extent where
  start : Nat
  length : Nat
deriving DecidableEq

namespace Extent

/-! ## Building extents -/

/-- The empty extent at an offset. -/
def caret (offset : Nat) : Extent :=
  ⟨offset, 0⟩

/-- The extent that begins at one offset and ends just before another. -/
def between (start stop : Nat) : Extent :=
  ⟨start, stop - start⟩

/-- The extent of a whole text. -/
def whole (text : Text) : Extent :=
  ⟨0, text.length⟩

/-- The same extent moved right by a number of characters. -/
def shift (extent : Extent) (by_ : Nat) : Extent :=
  ⟨extent.start + by_, extent.length⟩

/-! ## Reading extents -/

/-- The offset just past the last character. -/
def stop (extent : Extent) : Nat :=
  extent.start + extent.length

/-- An extent is empty when it has no character. -/
def isEmpty (extent : Extent) : Bool :=
  extent.length == 0

/-- An extent holds an offset when the character there belongs to it. -/
def holds (extent : Extent) (offset : Nat) : Bool :=
  extent.start ≤ offset && offset < extent.stop

/-! ## Reading extents in machine words -/

/-- Offsets and lengths are words of 64 bits. -/
def wordSize : Nat :=
  18446744073709551616

/--
Where an extent ends, worked out beside a text of some size.  The start and the length of an
extent that does not lie in the text are any two words, and their sum begins at zero again behind
the largest word.  The offsets of a text are always words.
-/
def reach (size : Nat) (extent : Extent) : Nat :=
  if extent.stop ≤ size then extent.stop else extent.stop % wordSize

/-- The last offset of an extent, which is the largest word if the extent reaches zero. -/
def touched (size : Nat) (extent : Extent) : Nat :=
  if extent.reach size = 0 then wordSize - 1 else extent.reach size - 1

/-- Whether an offset stands from the start of an extent to where the extent reaches. -/
def covers (size : Nat) (extent : Extent) (offset : Nat) : Bool :=
  extent.start ≤ offset && offset < extent.reach size

/-- Two extents overlap when each begins before the other ends; an empty one overlaps nothing. -/
def overlaps (size : Nat) (a b : Extent) : Bool :=
  !a.isEmpty && !b.isEmpty && a.start < b.reach size && b.start < a.reach size

/-- An extent fits when its end is a word. -/
def Fits (extent : Extent) : Prop :=
  extent.stop < wordSize

instance (extent : Extent) : Decidable extent.Fits :=
  inferInstanceAs (Decidable (extent.stop < wordSize))

/-- An extent of a text ends where it ends. -/
theorem reach_of_le {size : Nat} {extent : Extent} (h : extent.stop ≤ size) :
    extent.reach size = extent.stop := by
  rw [reach, if_pos h]

/-- An extent that fits ends where it ends, inside the text or not. -/
theorem Fits.reach_eq {extent : Extent} (h : extent.Fits) (size : Nat) :
    extent.reach size = extent.stop := by
  unfold reach
  split
  · rfl
  · exact Nat.mod_eq_of_lt h

/-- The last offset of an extent that has characters and ends where it ends. -/
theorem touched_eq {size : Nat} {extent : Extent} (h : extent.reach size = extent.stop)
    (hsome : extent.isEmpty = false) : extent.touched size = extent.stop - 1 := by
  have hpos : extent.stop ≠ 0 := by
    simp only [isEmpty, beq_eq_false_iff_ne] at hsome
    unfold stop
    omega
  rw [touched, h, if_neg hpos]

theorem Fits.covers_eq {extent : Extent} (h : extent.Fits) (size offset : Nat) :
    extent.covers size offset = extent.holds offset := by
  rw [covers, holds, h.reach_eq]

@[simp]
theorem stop_caret (offset : Nat) : (caret offset).stop = offset :=
  rfl

@[simp]
theorem isEmpty_caret (offset : Nat) : (caret offset).isEmpty = true :=
  rfl

@[simp]
theorem stop_shift (extent : Extent) (n : Nat) : (extent.shift n).stop = extent.stop + n := by
  simp [shift, stop]
  omega

/-- The end of `between` is the requested one whenever the two offsets are in order. -/
theorem stop_between {start stop : Nat} (h : start ≤ stop) :
    (between start stop).stop = stop := by
  simp [between, Extent.stop]
  omega

@[simp]
theorem between_add (start n : Nat) : between start (start + n) = ⟨start, n⟩ := by
  simp [between]

end Extent

/-- The characters of a text that an extent selects, as far as the text reaches. -/
def Text.slice (text : Text) (extent : Extent) : Text :=
  (text.drop extent.start).take extent.length

@[simp]
theorem Text.slice_whole (text : Text) : text.slice (Extent.whole text) = text := by
  simp [Text.slice, Extent.whole]

theorem Text.length_slice {text : Text} {extent : Extent} (h : extent.stop ≤ text.length) :
    (text.slice extent).length = extent.length := by
  unfold Extent.stop at h
  rw [Text.slice, List.length_take, List.length_drop]
  omega

/-- A slice of a slice is a slice of the text. -/
theorem Text.slice_slice {text : Text} {outer inner : Extent} (h : inner.stop ≤ outer.length) :
    (text.slice outer).slice inner = text.slice (inner.shift outer.start) := by
  unfold Extent.stop at h
  unfold Text.slice Extent.shift
  dsimp only
  rw [List.drop_take, List.drop_drop, List.take_take, Nat.min_eq_left (by omega), Nat.add_comm]

end ScratchEditor

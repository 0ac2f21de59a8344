import ScratchEditor.Text.Basic

/-!
# Byte offsets

Characters take between one and four bytes in UTF-8.  This module measures
texts in bytes, turns character offsets into byte offsets, and counts the
characters before a byte offset, either from scratch or along a growing
sequence of offsets.

Main definitions:

- `Text.byteOffset`: where a character begins, the end of the text for an
  offset past it.
- `Text.charsBefore`: how many characters end at or before a byte offset.
- `Text.sliceBytes`: the characters between two byte offsets.
- `OffsetMeter`: a counter that only moves forward, so that counting at many
  increasing byte offsets reads the text once.
-/

namespace ScratchEditor

namespace Text

/-- The bytes a text takes in UTF-8. -/
def byteLength : Text → Nat
  | [] => 0
  | c :: rest => c.utf8Size + byteLength rest

/-- The byte at which the character with this offset begins; the end of the text past it. -/
def byteOffset (text : Text) (offset : Nat) : Nat :=
  byteLength (text.take offset)

/-- How many characters end at or before a byte offset. -/
def charsBefore : Text → Nat → Nat
  | [], _ => 0
  | c :: rest, bytes =>
    if c.utf8Size ≤ bytes then charsBefore rest (bytes - c.utf8Size) + 1 else 0

/-- The characters between two byte offsets. -/
def sliceBytes (text : Text) (first last : Nat) : Text :=
  text.slice (Extent.between (text.charsBefore first) (text.charsBefore last))

@[simp]
theorem byteLength_append (a b : Text) : byteLength (a ++ b) = byteLength a + byteLength b := by
  induction a with
  | nil => simp [byteLength]
  | cons c rest ih =>
    simp only [List.cons_append, byteLength, ih]
    omega

theorem byteOffset_le (text : Text) (offset : Nat) : text.byteOffset offset ≤ text.byteLength := by
  have hsplit := byteLength_append (text.take offset) (text.drop offset)
  rw [List.take_append_drop] at hsplit
  exact hsplit ▸ Nat.le_add_right _ _

theorem byteOffset_mono (text : Text) {i j : Nat} (h : i ≤ j) :
    text.byteOffset i ≤ text.byteOffset j := by
  have hle := byteOffset_le (text.take j) i
  rwa [byteOffset, List.take_take, Nat.min_eq_left h] at hle

/-- A character offset survives the way through bytes, clamped to the text. -/
theorem charsBefore_byteOffset (text : Text) (offset : Nat) :
    text.charsBefore (text.byteOffset offset) = min offset text.length := by
  induction text generalizing offset with
  | nil => simp [charsBefore]
  | cons c rest ih =>
    cases offset with
    | zero =>
      have hpos : 0 < c.utf8Size := Char.utf8Size_pos c
      simp [byteOffset, byteLength, charsBefore]
      omega
    | succ n =>
      have hrest := ih n
      simp only [byteOffset] at hrest
      simp [byteOffset, byteLength, charsBefore, hrest]

theorem charsBefore_le (text : Text) (bytes : Nat) : text.charsBefore bytes ≤ text.length := by
  induction text generalizing bytes with
  | nil => exact Nat.le_refl 0
  | cons c rest ih =>
    rw [charsBefore, List.length_cons]
    split
    · exact Nat.succ_le_succ (ih _)
    · exact Nat.zero_le _

/-- How many characters stand between two byte offsets. -/
theorem length_sliceBytes (text : Text) (first last : Nat) :
    (text.sliceBytes first last).length = text.charsBefore last - text.charsBefore first := by
  rw [sliceBytes, slice, Extent.between, List.length_take, List.length_drop]
  exact Nat.min_eq_left (Nat.sub_le_sub_right (text.charsBefore_le last) _)

/-- A slice is the same between the bytes at which it begins and ends. -/
theorem sliceBytes_byteOffset {text : Text} {extent : Extent} (h : extent.stop ≤ text.length) :
    text.sliceBytes (text.byteOffset extent.start) (text.byteOffset extent.stop) =
      text.slice extent := by
  have hle : extent.start ≤ extent.stop := Nat.le_add_right _ _
  rw [sliceBytes, charsBefore_byteOffset, charsBefore_byteOffset, Nat.min_eq_left h,
    Nat.min_eq_left (Nat.le_trans hle h), Extent.stop, Extent.between_add]

/-- Where a character of a slice begins, in bytes from the beginning of the text. -/
theorem byteOffset_slice {text : Text} {extent : Extent} {offset : Nat}
    (h : offset ≤ extent.length) :
    text.byteOffset extent.start + (text.slice extent).byteOffset offset =
      text.byteOffset (extent.start + offset) := by
  rw [byteOffset, byteOffset, byteOffset, slice, List.take_take, Nat.min_eq_left h,
    List.take_add, byteLength_append]

end Text

/-- A count of characters that follows a byte position moving forward through a text. -/
structure OffsetMeter where
  text : Text
  /-- The byte position reached so far. -/
  bytes : Nat
  /-- The character offset that belongs to it. -/
  chars : Nat

namespace OffsetMeter

/-- A meter at the beginning of a text. -/
def start (text : Text) : OffsetMeter :=
  ⟨text, 0, 0⟩

/-- A meter behind so many characters of a text. -/
def behind (text : Text) (offset : Nat) : OffsetMeter :=
  ⟨text, text.byteOffset offset, offset⟩

/--
Moves the meter to a byte position and counts the characters on the way.  A
position that is not ahead leaves it where it is, and one past the end stops at
the end.
-/
def advance (meter : OffsetMeter) (target : Nat) : OffsetMeter :=
  if meter.bytes < target then
    let stop := min target meter.text.byteLength
    { meter with
      bytes := stop
      chars := meter.chars + (meter.text.sliceBytes meter.bytes stop).length }
  else meter

/-- The character offsets read off while the meter visits byte positions in turn. -/
def readings (meter : OffsetMeter) : List Nat → List Nat
  | [] => []
  | target :: rest =>
    let moved := meter.advance target
    moved.chars :: readings moved rest

@[simp]
theorem length_readings (meter : OffsetMeter) (targets : List Nat) :
    (meter.readings targets).length = targets.length := by
  induction targets generalizing meter with
  | nil => rfl
  | cons target rest ih => simp [readings, ih]

/-- A meter moves forward to any character of the text. -/
theorem advance_behind {text : Text} {i j : Nat} (hle : i ≤ j) (hlast : j ≤ text.length) :
    (behind text i).advance (text.byteOffset j) = behind text j := by
  have hi := text.charsBefore_byteOffset i
  have hj := text.charsBefore_byteOffset j
  rw [Nat.min_eq_left (Nat.le_trans hle hlast)] at hi
  rw [Nat.min_eq_left hlast] at hj
  unfold advance behind
  by_cases hmoves : text.byteOffset i < text.byteOffset j
  · dsimp only
    rw [if_pos hmoves, Nat.min_eq_left (text.byteOffset_le j), Text.length_sliceBytes, hi, hj,
      Nat.add_sub_cancel' hle]
  · have hsame : text.byteOffset i = text.byteOffset j :=
      Nat.le_antisymm (text.byteOffset_mono hle) (Nat.le_of_not_lt hmoves)
    have hij : i = j := by
      rw [← hi, ← hj, hsame]
    rw [if_neg hmoves, hij]

end OffsetMeter

end ScratchEditor

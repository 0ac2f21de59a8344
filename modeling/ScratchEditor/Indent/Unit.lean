import ScratchEditor.Text.Basic

/-!
# Indent units

One level of nesting is indented by a tab or by a number of spaces.

Main definitions:

- `IndentUnit`: the two kinds of unit.
- `IndentUnit.count` and `IndentUnit.times`: the blanks of a number of levels.
- `IndentUnit.hasRoom`: whether there is room for them.
- `IndentUnit.clamp`: the nearest unit that settings may ask for.
-/

namespace ScratchEditor

/-- What one level of nesting is indented by. -/
inductive IndentUnit
  /-- A tab. -/
  | tab
  /-- A number of spaces. -/
  | spaces (width : Nat)
deriving DecidableEq

namespace IndentUnit

/-- The widest unit of spaces that settings and detection accept. -/
def widest : Nat :=
  16

/-- The characters one level takes. -/
def width : IndentUnit → Nat
  | tab => 1
  | spaces width => width

/-- The character a unit is made of. -/
def blank : IndentUnit → Char
  | tab => '\t'
  | spaces _ => ' '

/--
How many blanks the indentation of a number of levels has.  The product of two words begins at
zero again behind the largest word.  A single level is a word by itself, and no memory holds a
text with so many open braces that the product with an accepted width would be none.
-/
def count (unit : IndentUnit) (levels : Nat) : Nat :=
  if levels ≤ 1 ∨ unit.width ≤ widest then unit.width * levels
  else unit.width * levels % Extent.wordSize

/-- The indentation of a number of levels. -/
def times (unit : IndentUnit) (levels : Nat) : Text :=
  List.replicate (unit.count levels) unit.blank

/-- The number of bytes that no text reaches: a length has to be a signed word. -/
def room : Nat :=
  9223372036854775808

/-- Whether there is room for the indentation of a number of levels. -/
def hasRoom (unit : IndentUnit) (levels : Nat) : Bool :=
  unit.count levels < room

/-- The nearest unit that settings may ask for. -/
def clamp : IndentUnit → IndentUnit
  | tab => tab
  | spaces width => spaces (min (max width 1) widest)

/-- How a unit is shown to a person. -/
def describe : IndentUnit → String
  | tab => "tabs"
  | spaces 1 => "1 space"
  | spaces width => s!"{width} spaces"

@[simp]
theorem count_zero (unit : IndentUnit) : unit.count 0 = 0 := by
  simp [count]

@[simp]
theorem count_one (unit : IndentUnit) : unit.count 1 = unit.width := by
  simp [count]

/-- The units that settings may ask for have all their blanks. -/
theorem count_of_width_le {unit : IndentUnit} (h : unit.width ≤ widest) (levels : Nat) :
    unit.count levels = unit.width * levels :=
  if_pos (Or.inr h)

/-- A unit has all its blanks as long as there is room for them. -/
theorem count_of_lt_room {unit : IndentUnit} {levels : Nat} (h : unit.width * levels < room) :
    unit.count levels = unit.width * levels := by
  have hword : unit.width * levels < Extent.wordSize := Nat.lt_trans h (by decide)
  unfold count
  split
  · rfl
  · exact Nat.mod_eq_of_lt hword

theorem hasRoom_of_lt_room {unit : IndentUnit} {levels : Nat} (h : unit.width * levels < room) :
    unit.hasRoom levels = true := by
  rw [hasRoom, count_of_lt_room h]
  exact decide_eq_true h

@[simp]
theorem length_times (unit : IndentUnit) (levels : Nat) :
    (unit.times levels).length = unit.count levels :=
  List.length_replicate

@[simp]
theorem times_zero (unit : IndentUnit) : unit.times 0 = [] := by
  simp [times]

/-- Clamping twice changes nothing more. -/
@[simp]
theorem clamp_clamp (unit : IndentUnit) : unit.clamp.clamp = unit.clamp := by
  cases unit with
  | tab => rfl
  | spaces width =>
    simp only [clamp, widest, spaces.injEq]
    omega

end IndentUnit

end ScratchEditor

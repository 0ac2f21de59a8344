import ScratchEditor.Text.Line
import ScratchEditor.Text.Spot

/-!
# The gutter

Beside the text stand the numbers of the lines in view, with a mark at those
that a selection touches.  A caret marks the line it stands on; one at the end
of the text or past it marks the last line in view.

Main definitions:

- `GutterRow` and `gutterRows`.
-/

namespace ScratchEditor

/-- A line in view. -/
structure GutterRow where
  /-- The number of the line, counted from one. -/
  number : Nat
  /-- The line with its line feed. -/
  extent : Extent
  /-- Whether a selection touches the line. -/
  marked : Bool
deriving DecidableEq

/-- Whether a line that does not begin past the view is shown. -/
def showsLine (size : Nat) (view line : Extent) : Bool :=
  line.start < view.reach size || line.start == view.start ||
    (line.isEmpty && line.start == size)

/-- The lines in view. -/
def linesInView (text : Text) (view : Extent) : List Extent :=
  ((text.lineExtents.drop (text.lineNumberAt view.start - 1)).takeWhile
    (·.start ≤ view.reach text.length)).filter (showsLine text.length view)

/-- Whether a selection touches a line. -/
def marksLine (size : Nat) (line : Extent) (isLast : Bool) (selection : Extent) : Bool :=
  if selection.isEmpty then
    line.holds selection.start || (size ≤ selection.start && isLast)
  else selection.overlaps size line

/-- Numbers lines from a number on and marks the selected ones. -/
def numberRows (size : Nat) (selections : List Extent) : Nat → List Extent → List GutterRow
  | _, [] => []
  | number, line :: rest =>
    ⟨number, line, selections.any (marksLine size line rest.isEmpty)⟩ ::
      numberRows size selections (number + 1) rest

/-- The rows of the gutter beside the lines in view. -/
def gutterRows (text : Text) (view : Extent) (selections : List Extent) : List GutterRow :=
  numberRows text.length selections (text.lineNumberAt view.start) (linesInView text view)

end ScratchEditor

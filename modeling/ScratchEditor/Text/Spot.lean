import ScratchEditor.Text.Basic

/-!
# Rows and columns

Compilers report places as rows and columns counted from one.  A `Spot` is
such a place; walking over a text moves it, and a text places it at an offset.
A walk that looks for a spot counts columns on the row of that spot only.

Main definitions:

- `Spot.after`: the spot one character further.
- `Spot.towards`: the same on the way to a spot.
- `Text.spotAt`: the spot of an offset, the end of the text for one past it.
- `Text.offsetOf`: the offset of a spot, the length of the text for a spot that
  the text does not reach.
-/

namespace ScratchEditor

/-- A place in a text by row and column, both counted from one. -/
structure Spot where
  row : Nat
  column : Nat
deriving DecidableEq

namespace Spot

/-- Where every text begins. -/
def origin : Spot :=
  ⟨1, 1⟩

/-- The spot after a character: a line feed begins the next row. -/
def after (here : Spot) (c : Char) : Spot :=
  if c = '\n' then ⟨here.row + 1, 1⟩ else ⟨here.row, here.column + 1⟩

/-- One character further on the way to a target: only on its row are columns counted. -/
def towards (target here : Spot) (c : Char) : Spot :=
  if c = '\n' then ⟨here.row + 1, here.column⟩
  else if here.row = target.row then ⟨here.row, here.column + 1⟩
  else here

/-- How many characters of a text a walk takes until it stands on the target. -/
def distance (target : Spot) : Spot → Text → Nat
  | _, [] => 0
  | here, c :: rest =>
    if here = target then 0 else distance target (target.towards here c) rest + 1

/-- The distance to a target stays inside the text. -/
theorem distance_le (target here : Spot) (text : Text) :
    distance target here text ≤ text.length := by
  induction text generalizing here with
  | nil => simp [distance]
  | cons c rest ih =>
    simp only [distance]
    split
    · exact Nat.zero_le _
    · simpa using ih (target.towards here c)

end Spot

namespace Text

/-- The spot of an offset; offsets past the end stand at the end. -/
def spotAt (text : Text) (offset : Nat) : Spot :=
  (text.take offset).foldl Spot.after Spot.origin

/-- The offset of a spot; a spot the text never reaches stands at its end. -/
def offsetOf (text : Text) (target : Spot) : Nat :=
  target.distance Spot.origin text

/-- The number of the line that holds an offset, counted from one. -/
def lineNumberAt (text : Text) (offset : Nat) : Nat :=
  1 + (text.take offset).countP (· == '\n')

/-- A spot is never placed past the text. -/
theorem offsetOf_le (text : Text) (target : Spot) : text.offsetOf target ≤ text.length :=
  Spot.distance_le target Spot.origin text

end Text

end ScratchEditor

import ScratchEditor.Text.Encoding

/-!
# Lines

The lines of a text are its pieces cut after each line feed, so a text that is
empty or ends in a line feed has a last, empty line.  An edit is looked at
again in whole lines: `Text.wholeLines` widens an extent to the lines that hold
its first and its last character.  `Text.linesInBytes` looks for the ends of the
same lines in bytes, which is how they are cut out of the text.

Main definitions:

- `Text.lines` and `Text.lineExtents`: the lines and where they stand.
- `Text.wholeLines`: the extent of the lines an extent touches.
- `Text.linesInBytes`: the same lines with the bytes between which they stand.

Main results:

- `flatten_lines`: putting the lines together again gives the text.
- `lines_ne_nil`: a text has at least one line.
-/

namespace ScratchEditor

namespace Text

/-! ## Cutting a text into lines -/

/-- The lines of a text, each with its line feed; the last line is what follows the last one. -/
def lines : Text → List Text
  | [] => [[]]
  | c :: rest =>
    if c = '\n' then [c] :: lines rest
    else
      match lines rest with
      | [] => [[c]]
      | line :: more => (c :: line) :: more

/-- Every text has a line. -/
theorem lines_ne_nil (text : Text) : text.lines ≠ [] := by
  cases text with
  | nil => simp [lines]
  | cons c rest =>
    unfold lines
    split
    · simp
    · split <;> simp

/-- Cutting into lines loses nothing. -/
theorem flatten_lines (text : Text) : text.lines.flatten = text := by
  induction text with
  | nil => rfl
  | cons c rest ih =>
    unfold lines
    split
    · simp [ih]
    · split
      · rename_i hnil
        exact absurd hnil (lines_ne_nil rest)
      · rename_i hlines
        rw [hlines] at ih
        simpa using ih

/-- The extents of consecutive pieces, the first of which begins at an offset. -/
def extentsFrom : Nat → List Text → List Extent
  | _, [] => []
  | start, piece :: rest => ⟨start, piece.length⟩ :: extentsFrom (start + piece.length) rest

/-- Where the lines of a text stand. -/
def lineExtents (text : Text) : List Extent :=
  extentsFrom 0 text.lines

/-! ## Widening an extent to whole lines -/

/-- The first line of a text, with its line feed if it has one. -/
def firstLine : Text → Text
  | [] => []
  | c :: rest => if c = '\n' then [c] else c :: firstLine rest

/-- The offset at which the line holding an offset begins. -/
def lineStart (text : Text) (offset : Nat) : Nat :=
  offset - ((text.take offset).reverse.takeWhile (· != '\n')).length

/-- The offset just past the line that holds an offset. -/
def lineStop (text : Text) (offset : Nat) : Nat :=
  offset + (firstLine (text.drop offset)).length

/--
The extent of the lines that an extent touches: from the line of its first
character through the line of its last one, and for an empty extent the line it
stands on.  Offsets past the text count as its end.
-/
def wholeLines (text : Text) (extent : Extent) : Extent :=
  let first := min extent.start text.length
  let last :=
    if extent.isEmpty then first
    else max (min (extent.touched text.length) text.length) first
  Extent.between (text.lineStart first) (text.lineStop last)

/-! ## Whole lines in bytes -/

/-- The byte at which the first character of a kind begins. -/
def byteOf? (kind : Char) : Text → Option Nat
  | [] => none
  | c :: rest => if c = kind then some 0 else (byteOf? kind rest).map (c.utf8Size + ·)

/-- The byte at which the last character of a kind begins. -/
def lastByteOf? (kind : Char) : Text → Option Nat
  | [] => none
  | c :: rest =>
    match lastByteOf? kind rest with
    | some byte => some (c.utf8Size + byte)
    | none => if c = kind then some 0 else none

end Text

/-- Whole lines of a text, by their characters and by their bytes. -/
structure LineRegion where
  extent : Extent
  /-- The byte at which the first line begins. -/
  firstByte : Nat
  /-- The byte just past the last line. -/
  stopByte : Nat
deriving DecidableEq

namespace Text

/--
The lines that an extent touches, found by the line feeds before its first byte
and from its last character on.  The characters are counted in the bytes.
-/
def linesInBytes (text : Text) (extent : Extent) : LineRegion :=
  let here := text.byteOffset extent.start
  let probe :=
    if extent.isEmpty then here else max (text.byteOffset (extent.touched text.length)) here
  let firstByte := (lastByteOf? '\n' (text.sliceBytes 0 here)).elim 0 (· + 1)
  let stopByte :=
    (byteOf? '\n' (text.sliceBytes probe text.byteLength)).elim text.byteLength (probe + · + 1)
  ⟨⟨(text.sliceBytes 0 firstByte).length, (text.sliceBytes firstByte stopByte).length⟩,
    firstByte, stopByte⟩

end Text

end ScratchEditor

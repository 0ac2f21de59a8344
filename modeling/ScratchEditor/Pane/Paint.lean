import ScratchEditor.Pane.Chunk
import ScratchEditor.Token.Classifier

/-!
# Painting for a terminal

A terminal draws characters in the attributes that escape sequences set.  Each
character gets the style of the last stretch that holds it and is underlined if
a link holds it; sequences stand only where the attributes change, and nothing
stays set at the end.

Main definitions:

- `Cell`: the attributes of a character.
- `paint`: a text with escape sequences.
- `paintSpans` and `paintChunk`: highlighted text and output.
-/

namespace ScratchEditor

/-- The attributes of a character. -/
structure Cell where
  style : Option Style
  underlined : Bool
deriving DecidableEq

namespace Cell

/-- No attributes. -/
def plain : Cell :=
  ⟨none, false⟩

/-- The codes of a style. -/
def styleCodes (style : Style) : List Text :=
  let color := "38;2;".toList ++ decimal style.color.red.toNat ++ ';' ::
    decimal style.color.green.toNat ++ ';' :: decimal style.color.blue.toNat
  if style.bold then [['1'], color] else [color]

/-- The codes that set the attributes. -/
def codes (cell : Cell) : List Text :=
  (cell.style.map styleCodes).getD [] ++ if cell.underlined then [['4']] else []

/-- Codes with semicolons between them. -/
def joinCodes : List Text → Text
  | [] => []
  | [last] => last
  | first :: rest => first ++ ';' :: joinCodes rest

/-- The sequence that sets the attributes. -/
def escape (cell : Cell) : Text :=
  ['\x1b', '['] ++ joinCodes cell.codes ++ ['m']

end Cell

/-- The sequence that takes all attributes back. -/
def resetSequence : Text :=
  ['\x1b', '[', '0', 'm']

/-- The attributes of the character at an offset of a text of some size. -/
def cellAt (size : Nat) (styles : List StyledExtent) (underlined : List Extent) (offset : Nat) :
    Cell :=
  ⟨(styles.reverse.find? (·.extent.covers size offset)).map (·.style),
    underlined.any (·.covers size offset)⟩

/-- What stands between characters of two attributes. -/
def transition (current next : Cell) : Text :=
  if next = current then []
  else
    (if current = .plain then [] else resetSequence) ++
      (if next = .plain then [] else next.escape)

/-- Paints the characters of a text of some size from an offset on, after one of some
attributes. -/
def paintFrom (size : Nat) (styles : List StyledExtent) (underlined : List Extent) :
    Nat → Cell → Text → Text
  | _, current, [] => if current = .plain then [] else resetSequence
  | offset, current, c :: rest =>
    let next := cellAt size styles underlined offset
    transition current next ++ c :: paintFrom size styles underlined (offset + 1) next rest

/-- Paints a text. -/
def paint (text : Text) (styles : List StyledExtent) (underlined : List Extent) : Text :=
  paintFrom text.length styles underlined 0 .plain text

/-- Paints a text with the spans of a classification. -/
def paintSpans (text : Text) (spans : List Span) : Text :=
  paint text (spans.map fun span => ⟨span.extent, span.style⟩) []

/-- Paints a chunk of output. -/
def paintChunk (chunk : Chunk) : Text :=
  paint chunk.text chunk.styles (chunk.links.map (·.extent))

@[simp]
theorem transition_self (cell : Cell) : transition cell cell = [] := by
  simp [transition]

end ScratchEditor

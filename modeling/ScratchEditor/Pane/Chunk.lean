import ScratchEditor.Text.Jump
import ScratchEditor.Token.Category

/-!
# Chunks of output

Output reaches the pane in chunks.  A chunk is a text with styles for stretches
of it and with links that lead to spots of the script.

Main definitions:

- `Chunk` with `Chunk.plain` and `Chunk.linkAt?`.
- `Chunk.output` and `Chunk.exit`: what the script prints, and how it ended.
-/

namespace ScratchEditor

/-- A stretch of a chunk and its style. -/
structure StyledExtent where
  extent : Extent
  style : Style
deriving DecidableEq

/-- A stretch of a chunk that leads to a spot. -/
structure Link where
  extent : Extent
  target : Spot
deriving DecidableEq

/-- A text with styles and links; later styles lie over earlier ones. -/
structure Chunk where
  text : Text
  styles : List StyledExtent
  links : List Link
deriving DecidableEq

namespace Chunk

/-- A text in one style; the empty text has none. -/
def plain (text : Text) (style : Style) : Chunk :=
  ⟨text, if text.isEmpty then [] else [⟨Extent.whole text, style⟩], []⟩

/-- A chunk without text changes nothing. -/
def isEmpty (chunk : Chunk) : Bool :=
  chunk.text.isEmpty

/-- The number of characters. -/
def size (chunk : Chunk) : Nat :=
  chunk.text.length

/-- Where the link under a character leads. -/
def linkAt? (chunk : Chunk) (offset : Nat) : Option Spot :=
  (chunk.links.find? (·.extent.holds offset)).map (·.target)

/-- What a script prints. -/
def output (text : Text) (colors : OutputColors) : Chunk :=
  plain text (.regular colors.text)

/-- The line that ends the output of a script. -/
def exit (code : Int) (colors : OutputColors) : Chunk :=
  plain ("\nProcess exited with code ".toList ++ decimalInt code ++ "\n\n\n".toList)
    (.regular (if code = 0 then colors.exitSuccess else colors.exitFailure))

@[simp]
theorem text_plain (text : Text) (style : Style) : (plain text style).text = text :=
  rfl

@[simp]
theorem links_plain (text : Text) (style : Style) : (plain text style).links = [] :=
  rfl

/-- The line that ends the output is never empty. -/
theorem isEmpty_exit (code : Int) (colors : OutputColors) : (exit code colors).isEmpty = false := by
  simp [exit, isEmpty]

end Chunk

end ScratchEditor

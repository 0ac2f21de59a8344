import ScratchEditor.Text.Basic
import ScratchEditor.Text.CodeSet

/-!
# Blanks

Blanks are the characters with the Unicode property White_Space.  Values typed
by a person are read without the blanks around them.

Main definitions:

- `isBlank`: the blank characters.
- `Text.trim`: a text without its leading and trailing blanks.
-/

namespace ScratchEditor

/-- The code points with the property White_Space. -/
def whiteSpace : CodeSet :=
  ⟨[
    9, 14, 32, 33, 133, 134, 160, 161, 5760, 5761, 8192, 8203, 8232, 8234, 8239, 8240, 8287, 8288,
    12288, 12289]⟩

/-- A character is blank when it has the property White_Space. -/
def isBlank (c : Char) : Bool :=
  whiteSpace.has c

namespace Text

/-- A text without its leading blanks. -/
def trimLeft (text : Text) : Text :=
  text.dropWhile isBlank

/-- A text without its trailing blanks. -/
def trimRight (text : Text) : Text :=
  (text.reverse.dropWhile isBlank).reverse

/-- A text without the blanks around it. -/
def trim (text : Text) : Text :=
  text.trimLeft.trimRight

/-- A text of blanks alone, the empty text among them. -/
def isBlankOnly (text : Text) : Bool :=
  text.all isBlank

end Text

end ScratchEditor

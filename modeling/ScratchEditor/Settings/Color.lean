import ScratchEditor.Text.Hexadecimal

/-!
# Colors

Colors are written as `#` and two hexadecimal digits each for red, green and
blue, then two for opacity unless the color is opaque.  Reading accepts either
letter case, and a plus sign in place of the leading digit of a pair.

Main definitions:

- `Color.parse?` and `Color.hex`: the text of a color and back.
- `ColorError`: a text that is no color.
-/

namespace ScratchEditor

/-- A color with its opacity. -/
structure Color where
  red : UInt8
  green : UInt8
  blue : UInt8
  alpha : UInt8
deriving DecidableEq

/-- A text that is no color. -/
structure ColorError where
  text : Text
deriving DecidableEq

/-- How the error is worded. -/
def ColorError.message (error : ColorError) : String :=
  "invalid hex color: " ++ String.ofList error.text

namespace Color

/-- An opaque color. -/
def rgb (red green blue : UInt8) : Color :=
  ⟨red, green, blue, 255⟩

/-! ## Reading -/

/-- The value of a pair of digits, or of a plus sign and a digit. -/
def channel? (first second : Char) : Option UInt8 :=
  if first = '+' then (hexValue? second).map UInt8.ofNat
  else do
    let high ← hexValue? first
    let low ← hexValue? second
    return UInt8.ofNat (high * 16 + low)

/-- The color a text stands for. -/
def parse? : Text → Option Color
  | ['#', a, b, c, d, e, f] => do
    return rgb (← channel? a b) (← channel? c d) (← channel? e f)
  | ['#', a, b, c, d, e, f, g, h] => do
    return ⟨← channel? a b, ← channel? c d, ← channel? e f, ← channel? g h⟩
  | _ => none

/-- The color a text stands for, or the complaint about the text. -/
def parse (text : Text) : Except ColorError Color :=
  match parse? text with
  | some color => .ok color
  | none => .error ⟨text⟩

/-! ## Writing -/

/-- The two digits of a channel. -/
def channelDigits (value : UInt8) : Text :=
  [upperHexDigit (value.toNat / 16), upperHexDigit (value.toNat % 16)]

/-- The text of a color; an opaque one has no digits for its opacity. -/
def hex (color : Color) : Text :=
  '#' :: channelDigits color.red ++ channelDigits color.green ++ channelDigits color.blue ++
    if color.alpha = 255 then [] else channelDigits color.alpha

end Color

end ScratchEditor

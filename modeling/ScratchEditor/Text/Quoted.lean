import ScratchEditor.Text.Basic
import ScratchEditor.Text.Printable

/-!
# Quoted texts

A message shows a text it complains about between double quotes.  Quotes and
backslashes are escaped, the common controls have short names, and every other
character that cannot be seen on its own is given by its code point.

Main definitions:

- `Text.quoted`: a text as a message shows it.
-/

namespace ScratchEditor

/-- The digits of a code point in lower-case hexadecimal. -/
def codePointDigits (c : Char) : Text :=
  Nat.toDigits 16 c.toNat

/-- One character inside quotes. -/
def quotedChar (c : Char) : Text :=
  if c = '"' then ['\\', '"']
  else if c = '\\' then ['\\', '\\']
  else if c = '\n' then ['\\', 'n']
  else if c = '\r' then ['\\', 'r']
  else if c = '\t' then ['\\', 't']
  else if c.toNat = 0 then ['\\', '0']
  else if isPrintable c then [c]
  else ['\\', 'u', '{'] ++ codePointDigits c ++ ['}']

/-- A text between quotes, with everything escaped that could not be read back. -/
def Text.quoted (text : Text) : Text :=
  ['"'] ++ text.flatMap quotedChar ++ ['"']

end ScratchEditor

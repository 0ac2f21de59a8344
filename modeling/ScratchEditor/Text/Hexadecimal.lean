import ScratchEditor.Text.Basic

/-!
# Hexadecimal digits

Colors, escapes and bytes are written in hexadecimal.  Digits are read in
either letter case and written in the one that the place asks for.

Main definitions:

- `hexValue?`: the value of a digit.
- `lowerHexDigit`, `upperHexDigit`: the digit of a value.
-/

namespace ScratchEditor

/-- The value of a hexadecimal digit. -/
def hexValue? (c : Char) : Option Nat :=
  if c.isDigit then some (c.toNat - '0'.toNat)
  else if 'a' ≤ c ∧ c ≤ 'f' then some (c.toNat - 'a'.toNat + 10)
  else if 'A' ≤ c ∧ c ≤ 'F' then some (c.toNat - 'A'.toNat + 10)
  else none

/-- A hexadecimal digit in either letter case. -/
def isHexDigit (c : Char) : Bool :=
  (hexValue? c).isSome

/-- The digit of a value below sixteen, in lower case. -/
def lowerHexDigit (n : Nat) : Char :=
  if n < 10 then Char.ofNat ('0'.toNat + n) else Char.ofNat ('a'.toNat + (n - 10))

/-- The digit of a value below sixteen, in upper case. -/
def upperHexDigit (n : Nat) : Char :=
  if n < 10 then Char.ofNat ('0'.toNat + n) else Char.ofNat ('A'.toNat + (n - 10))

/-- A digit written in either letter case is read back. -/
theorem hexValue?_digit : ∀ n < 16,
    hexValue? (lowerHexDigit n) = some n ∧ hexValue? (upperHexDigit n) = some n := by
  decide

end ScratchEditor

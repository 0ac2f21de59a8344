import ScratchEditor.Json.Value
import ScratchEditor.Text.Hexadecimal

/-!
# Escapes in JSON strings

Between the quotes of a JSON string stand the characters of a text, some of them
escaped.  Encoding escapes quotes, backslashes and controls only.  Decoding
accepts every escape; a code point above U+FFFF may be escaped as a pair of
surrogates, and a surrogate alone stands for nothing.

Main definitions:

- `Json.encodeText` and `Json.decodeText?`.
-/

namespace ScratchEditor

namespace Json

/-! ## Hexadecimal -/

/-- The number that four hexadecimal digits stand for. -/
def hexQuad? (a b c d : Char) : Option Nat := do
  let a ← hexValue? a
  let b ← hexValue? b
  let c ← hexValue? c
  let d ← hexValue? d
  return ((a * 16 + b) * 16 + c) * 16 + d

/-! ## Encoding -/

/-- One character of a string body. -/
def encodeChar (c : Char) : Text :=
  if c = '"' then ['\\', '"']
  else if c = '\\' then ['\\', '\\']
  else if c = '\n' then ['\\', 'n']
  else if c = '\r' then ['\\', 'r']
  else if c = '\t' then ['\\', 't']
  else if c = '\x08' then ['\\', 'b']
  else if c = '\x0c' then ['\\', 'f']
  else if c.toNat < 0x20 then
    ['\\', 'u', '0', '0', lowerHexDigit (c.toNat / 16), lowerHexDigit (c.toNat % 16)]
  else [c]

/-- The body of the string that stands for a text. -/
def encodeText (text : Text) : Text :=
  text.flatMap encodeChar

/-! ## Decoding -/

/-- The character that an escape of one letter stands for. -/
def shortEscape? (c : Char) : Option Char :=
  if c = '"' then some '"'
  else if c = '\\' then some '\\'
  else if c = '/' then some '/'
  else if c = 'b' then some '\x08'
  else if c = 'f' then some '\x0c'
  else if c = 'n' then some '\n'
  else if c = 'r' then some '\r'
  else if c = 't' then some '\t'
  else none

/-- The first half of a pair of surrogates. -/
def isHighSurrogate (n : Nat) : Bool :=
  0xD800 ≤ n && n ≤ 0xDBFF

/-- The second half of a pair of surrogates. -/
def isLowSurrogate (n : Nat) : Bool :=
  0xDC00 ≤ n && n ≤ 0xDFFF

/-- The character of a pair of surrogates. -/
def ofSurrogates (high low : Nat) : Char :=
  Char.ofNat (0x10000 + (high - 0xD800) * 0x400 + (low - 0xDC00))

/-- The text that a string body stands for, unless a surrogate stands alone in it. -/
def decodeText? : Text → Option Text
  | [] => some []
  | '\\' :: 'u' :: a :: b :: c :: d :: rest => do
    let n ← hexQuad? a b c d
    if isHighSurrogate n then
      match rest with
      | '\\' :: 'u' :: a :: b :: c :: d :: rest =>
        let low ← hexQuad? a b c d
        if isLowSurrogate low then
          (decodeText? rest).map (ofSurrogates n low :: ·)
        else none
      | _ => none
    else if isLowSurrogate n then none
    else (decodeText? rest).map (Char.ofNat n :: ·)
  | '\\' :: c :: rest => do
    let plain ← shortEscape? c
    (decodeText? rest).map (plain :: ·)
  | c :: rest => if c = '\\' then none else (decodeText? rest).map (c :: ·)

/-- A value for a text. -/
def ofText (text : Text) : Json :=
  .string (encodeText text)

end Json

end ScratchEditor

import Mathlib.Data.List.Basic
import ScratchEditor.Json.Escape
import ScratchEditor.Json.Reader

/-!
# Escaped texts are read back

Every character of a text is escaped on its own, and neither the reader of string bodies nor
the one that interprets them looks further than the escape of one character.  So what holds of
one character holds of a text by induction.

Main results:

- `Json.decodeText?_encodeText`: an escaped text stands for the text.
- `Json.body?_encodeText`: an escaped text is read up to its closing quote.
-/

namespace ScratchEditor

namespace Json

/-! ## Controls -/

/-- The escape of a control gives its code point. -/
theorem hexQuad?_control {c : Char} (h : c.toNat < 0x20) :
    hexQuad? '0' '0' (lowerHexDigit (c.toNat / 16)) (lowerHexDigit (c.toNat % 16)) =
      some c.toNat := by
  have hzero : hexValue? '0' = some 0 := by decide
  have hhigh := (hexValue?_digit (c.toNat / 16) (by omega)).1
  have hlow := (hexValue?_digit (c.toNat % 16) (by omega)).1
  have hvalue : c.toNat / 16 * 16 + c.toNat % 16 = c.toNat := by omega
  simp [hexQuad?, hzero, hhigh, hlow, hvalue]

/-- A digit that is written is a digit to the reader. -/
theorem isHexDigit_lowerHexDigit {n : Nat} (h : n < 16) : isHexDigit (lowerHexDigit n) = true := by
  simp [isHexDigit, (hexValue?_digit n h).1]

/-! ## Single characters -/

/-- The escape of a character stands for it. -/
theorem decodeText?_encodeChar (c : Char) (rest : Text) :
    decodeText? (encodeChar c ++ rest) = (decodeText? rest).map (c :: ·) := by
  unfold encodeChar
  split_ifs with hquote hbackslash hfeed hreturn htab hback hform hcontrol
  · simp [decodeText?, shortEscape?, hquote]
  · simp [decodeText?, shortEscape?, hbackslash]
  · simp [decodeText?, shortEscape?, hfeed]
  · simp [decodeText?, shortEscape?, hreturn]
  · simp [decodeText?, shortEscape?, htab]
  · simp [decodeText?, shortEscape?, hback]
  · simp [decodeText?, shortEscape?, hform]
  · have hhigh : isHighSurrogate c.toNat = false := by
      simp [isHighSurrogate]
      omega
    have hlow : isLowSurrogate c.toNat = false := by
      simp [isLowSurrogate]
      omega
    simp [decodeText?, hexQuad?_control hcontrol, hhigh, hlow]
  · rw [List.cons_append, List.nil_append, decodeText?.eq_def]
    split
    case h_1 heq => cases heq
    case h_2 heq => exact absurd (List.cons.inj heq).1 hbackslash
    case h_3 heq => exact absurd (List.cons.inj heq).1 hbackslash
    case h_4 heq =>
      obtain ⟨rfl, rfl⟩ := List.cons.inj heq
      rw [if_neg hbackslash]

/-- A letter that may follow a backslash is read with it. -/
theorem body?_escape {c : Char} (h : isEscapeLetter c = true) (rest : Text) :
    body? ('\\' :: c :: rest) = (body? rest).map fun part => ('\\' :: c :: part.1, part.2) := by
  rw [body?.eq_def]
  split
  case h_1 heq => cases heq
  case h_2 heq => exact absurd (List.cons.inj heq).1 (by decide)
  case h_3 heq =>
    obtain ⟨rfl, -⟩ := List.cons.inj (List.cons.inj heq).2
    cases h
  case h_4 heq =>
    obtain ⟨rfl, rfl⟩ := List.cons.inj (List.cons.inj heq).2
    rw [if_pos h]
  case h_5 hescape heq =>
    obtain ⟨rfl, rfl⟩ := List.cons.inj heq
    exact absurd rfl (hescape c rest rfl)

/-- A character that needs no escape is read as it is. -/
theorem body?_plain {c : Char} (hquote : c ≠ '"') (hplain : ¬ (c.toNat < 0x20 ∨ c = '\\'))
    (rest : Text) :
    body? (c :: rest) = (body? rest).map fun part => (c :: part.1, part.2) := by
  have hbackslash : c ≠ '\\' := (not_or.mp hplain).2
  rw [body?.eq_def]
  split
  case h_1 heq => cases heq
  case h_2 heq => exact absurd (List.cons.inj heq).1 hquote
  case h_3 heq => exact absurd (List.cons.inj heq).1 hbackslash
  case h_4 heq => exact absurd (List.cons.inj heq).1 hbackslash
  case h_5 heq =>
    obtain ⟨rfl, rfl⟩ := List.cons.inj heq
    rw [if_neg hplain]

/-- The escape of a character is read as it is. -/
theorem body?_encodeChar (c : Char) (rest : Text) :
    body? (encodeChar c ++ rest) =
      (body? rest).map fun part => (encodeChar c ++ part.1, part.2) := by
  unfold encodeChar
  split_ifs with hquote hbackslash hfeed hreturn htab hback hform hcontrol
  · simp [body?, isEscapeLetter]
  · simp [body?, isEscapeLetter]
  · simp [body?, isEscapeLetter]
  · simp [body?, isEscapeLetter]
  · simp [body?, isEscapeLetter]
  · simp [body?, isEscapeLetter]
  · simp [body?, isEscapeLetter]
  · have hzero : isHexDigit '0' = true := by decide
    have hhigh := isHexDigit_lowerHexDigit (n := c.toNat / 16) (by omega)
    have hlow := isHexDigit_lowerHexDigit (n := c.toNat % 16) (by omega)
    simp [body?, hzero, hhigh, hlow]
  · exact body?_plain hquote (not_or.mpr ⟨hcontrol, hbackslash⟩) rest

/-! ## Texts -/

/-- An escaped text stands for the text. -/
@[simp]
theorem decodeText?_encodeText (text : Text) : decodeText? (encodeText text) = some text := by
  induction text with
  | nil => rfl
  | cons c text ih =>
    rw [encodeText, List.flatMap_cons, decodeText?_encodeChar, ← encodeText, ih]
    rfl

/-- An escaped text is read up to its closing quote. -/
theorem body?_encodeText (text rest : Text) :
    body? (encodeText text ++ '"' :: rest) = some (encodeText text, rest) := by
  induction text with
  | nil => simp [encodeText, body?]
  | cons c text ih =>
    rw [encodeText, List.flatMap_cons, List.append_assoc, body?_encodeChar, ← encodeText, ih]
    rfl

end Json

end ScratchEditor

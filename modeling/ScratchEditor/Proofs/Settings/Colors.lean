import Mathlib.Data.List.Basic
import ScratchEditor.Settings.Color

/-!
# Texts of colors

A color is read pair by pair, and a plus sign that leads a pair is read as a zero.  So the
texts that stand for colors are those that are `#` and six or eight hexadecimal digits once a
zero is written for each such sign.  Writing a color gives that text in capitals, without the
digits of full opacity, and what is written is read back.

Main definitions:

- `Color.IsHex`: `#` and six or eight hexadecimal digits.
- `Color.unsigned`: a text with zeros for the signs that lead a pair.
- `Color.withoutOpacity`: a text without the digits of full opacity.
- `Color.channels?`: the values of all pairs of a text.

Main results:

- `Color.parse?_hex`: every color is read back from its text.
- `Color.parse?_unsigned`: the texts that stand for colors, and what is written for them.
-/

namespace ScratchEditor

/-! ## Digits -/

/-- The value of a digit is below sixteen, and its capital is written for it. -/
theorem upperHexDigit_of_hexValue? {c : Char} {n : Nat} (h : hexValue? c = some n) :
    n < 16 ∧ upperHexDigit n = c.toUpper := by
  have hascii : c.toNat < 128 := by
    simp only [hexValue?, Char.isDigit, Char.le_def, UInt32.le_iff_toNat_le, Char.toNat] at h ⊢
    grind
  have htable : ∀ k < 128, ∀ n ∈ hexValue? (Char.ofNat k),
      n < 16 ∧ upperHexDigit n = (Char.ofNat k).toUpper := by
    decide
  have hchar := htable c.toNat hascii n
  rw [Char.ofNat_toNat] at hchar
  exact hchar h

/-- The characters with a value are the hexadecimal digits. -/
theorem exists_hexValue?_iff {c : Char} : (∃ n, hexValue? c = some n) ↔ c.isHexDigit = true := by
  unfold hexValue? Char.isHexDigit
  split
  · simp_all
  · split
    · simp_all [Char.le_def]
    · split <;> simp_all [Char.le_def]

namespace Color

/-! ## Texts -/

/-- `#` and six or eight hexadecimal digits. -/
def IsHex (text : Text) : Prop :=
  ∃ digits, text = '#' :: digits ∧ (digits.length = 6 ∨ digits.length = 8) ∧
    ∀ c ∈ digits, c.isHexDigit = true

/-- Pairs with a zero for every plus sign that leads one. -/
def unsignedPairs : Text → Text
  | first :: second :: rest =>
    (if first = '+' then '0' else first) :: second :: unsignedPairs rest
  | rest => rest

/-- The text with a zero for every plus sign that leads a pair. -/
def unsigned : Text → Text
  | [] => []
  | mark :: pairs => mark :: unsignedPairs pairs

/-- The text without the digits of full opacity. -/
def withoutOpacity (text : Text) : Text :=
  if text.length = 9 ∧ text.drop 7 = ['F', 'F'] then text.take 7 else text

/-! ## Channels -/

/-- A plus sign before a digit is read as a zero. -/
theorem channel?_eq (first second : Char) :
    channel? first second = (do
      let high ← hexValue? (if first = '+' then '0' else first)
      let low ← hexValue? second
      return UInt8.ofNat (high * 16 + low)) := by
  unfold channel?
  split
  · have hzero : hexValue? '0' = some 0 := by decide
    cases hsecond : hexValue? second <;> simp [hzero]
  · rfl

/-- What is written for a pair that was read. -/
theorem channelDigits_of_channel? {first second : Char} {value : UInt8}
    (h : channel? first second = some value) :
    channelDigits value = [(if first = '+' then '0' else first).toUpper, second.toUpper] := by
  rw [channel?_eq] at h
  simp only [Option.bind_eq_bind, Option.bind_eq_some_iff, Option.pure_def, Option.some.injEq] at h
  obtain ⟨high, hhigh, low, hlow, rfl⟩ := h
  obtain ⟨hhigh_lt, hhigh_eq⟩ := upperHexDigit_of_hexValue? hhigh
  obtain ⟨hlow_lt, hlow_eq⟩ := upperHexDigit_of_hexValue? hlow
  have hvalue : (UInt8.ofNat (high * 16 + low)).toNat = high * 16 + low :=
    UInt8.toNat_ofNat_of_lt (by simp [UInt8.size]; omega)
  have hdiv : (high * 16 + low) / 16 = high := by omega
  have hmod : (high * 16 + low) % 16 = low := by omega
  unfold channelDigits
  rw [hvalue, hdiv, hmod, hhigh_eq, hlow_eq]

/-- The pairs that are read. -/
theorem exists_channel?_iff {first second : Char} :
    (∃ value, channel? first second = some value) ↔
      (if first = '+' then '0' else first).isHexDigit = true ∧ second.isHexDigit = true := by
  rw [← exists_hexValue?_iff, ← exists_hexValue?_iff, channel?_eq]
  constructor
  · rintro ⟨value, h⟩
    simp only [Option.bind_eq_bind, Option.bind_eq_some_iff] at h
    obtain ⟨high, hhigh, low, hlow, -⟩ := h
    exact ⟨⟨high, hhigh⟩, ⟨low, hlow⟩⟩
  · rintro ⟨⟨high, hhigh⟩, ⟨low, hlow⟩⟩
    exact ⟨UInt8.ofNat (high * 16 + low), by simp [hhigh, hlow]⟩

/-- The two digits of a channel are read back. -/
theorem channel?_channelDigits (value : UInt8) :
    channel? (upperHexDigit (value.toNat / 16)) (upperHexDigit (value.toNat % 16)) =
      some value := by
  have hlt := value.toNat_lt
  have hplus : ∀ n < 16, upperHexDigit n ≠ '+' := by decide
  have hhigh := (hexValue?_digit (value.toNat / 16) (by omega)).2
  have hlow := (hexValue?_digit (value.toNat % 16) (by omega)).2
  have hvalue : value.toNat / 16 * 16 + value.toNat % 16 = value.toNat := by omega
  rw [channel?_eq, if_neg (hplus _ (by omega)), hhigh, hlow]
  simp only [Option.bind_eq_bind, Option.bind_some, Option.pure_def, hvalue, UInt8.ofNat_toNat]

/-- The values of all pairs of a text. -/
def channels? : Text → Option (List UInt8)
  | [] => some []
  | [_] => none
  | first :: second :: rest => do
    let value ← channel? first second
    let values ← channels? rest
    return value :: values

/-- A color by its channels, the last of which may be missing. -/
def ofChannels? : List UInt8 → Option Color
  | [red, green, blue] => some (rgb red green blue)
  | [red, green, blue, alpha] => some ⟨red, green, blue, alpha⟩
  | _ => none

/-- There are two characters for every channel. -/
theorem length_of_channels? {pairs : Text} {values : List UInt8}
    (h : channels? pairs = some values) : pairs.length = 2 * values.length := by
  fun_induction channels? pairs generalizing values with
  | case1 => simp_all
  | case2 => simp at h
  | case3 first second rest ih =>
    simp only [Option.bind_eq_bind, Option.bind_eq_some_iff, Option.pure_def,
      Option.some.injEq] at h
    obtain ⟨value, -, values, hvalues, rfl⟩ := h
    have hlength := ih hvalues
    simp only [List.length_cons]
    omega

/-- What is written for the pairs that were read. -/
theorem flatMap_channelDigits_of_channels? {pairs : Text} {values : List UInt8}
    (h : channels? pairs = some values) :
    values.flatMap channelDigits = (unsignedPairs pairs).map Char.toUpper := by
  fun_induction channels? pairs generalizing values with
  | case1 =>
    obtain rfl : [] = values := by simpa using h
    rfl
  | case2 => simp at h
  | case3 first second rest ih =>
    simp only [Option.bind_eq_bind, Option.bind_eq_some_iff, Option.pure_def,
      Option.some.injEq] at h
    obtain ⟨value, hvalue, values, hvalues, rfl⟩ := h
    rw [List.flatMap_cons, channelDigits_of_channel? hvalue, ih hvalues, unsignedPairs]
    rfl

/-- Pairs can be read if nothing is left over and all are digits once they have no sign. -/
theorem exists_channels?_iff {pairs : Text} :
    (∃ values, channels? pairs = some values) ↔
      pairs.length % 2 = 0 ∧ ∀ c ∈ unsignedPairs pairs, c.isHexDigit = true := by
  fun_induction channels? pairs with
  | case1 => simp [unsignedPairs]
  | case2 => simp
  | case3 first second rest ih =>
    have hboth : (∃ values, (do
        let value ← channel? first second
        let values ← channels? rest
        return value :: values) = some values) ↔
          (∃ value, channel? first second = some value) ∧
            ∃ values, channels? rest = some values := by
      cases channel? first second <;> cases channels? rest <;> simp
    rw [hboth, exists_channel?_iff, ih, unsignedPairs, List.forall_mem_cons, List.forall_mem_cons]
    simp only [List.length_cons]
    have hparity : (rest.length + 1 + 1) % 2 = rest.length % 2 := by omega
    rw [hparity]
    tauto

@[simp]
theorem length_unsignedPairs (pairs : Text) : (unsignedPairs pairs).length = pairs.length := by
  fun_induction unsignedPairs pairs with
  | case1 first second rest ih => simp [ih]
  | case2 => rfl

/-! ## Colors -/

/-- A color is read from its channels. -/
theorem parse?_cons (pairs : Text) :
    parse? ('#' :: pairs) = (channels? pairs).bind ofChannels? := by
  unfold parse?
  split
  case h_1 a b c d e f h =>
    obtain rfl : pairs = [a, b, c, d, e, f] := (List.cons.inj h).2
    simp only [channels?, Option.bind_eq_bind, Option.pure_def, Option.bind_assoc, Option.bind_some,
      ofChannels?]
  case h_2 a b c d e f g i h =>
    obtain rfl : pairs = [a, b, c, d, e, f, g, i] := (List.cons.inj h).2
    simp only [channels?, Option.bind_eq_bind, Option.pure_def, Option.bind_assoc, Option.bind_some,
      ofChannels?]
  case h_3 hsix height =>
    cases hchannels : channels? pairs with
    | none => rfl
    | some values =>
      have hlength := length_of_channels? hchannels
      unfold ofChannels?
      rw [Option.bind_some]
      split
      · match pairs, hlength with
        | [a, b, c, d, e, f], _ => exact absurd rfl (hsix a b c d e f)
      · match pairs, hlength with
        | [a, b, c, d, e, f, g, i], _ => exact absurd rfl (height a b c d e f g i)
      · rfl

/-- The texts that stand for a color, by their channels. -/
theorem parse?_eq_some_iff {text : Text} {color : Color} :
    parse? text = some color ↔
      ∃ pairs values, text = '#' :: pairs ∧ channels? pairs = some values ∧
        ofChannels? values = some color := by
  constructor
  · intro h
    obtain ⟨pairs, rfl⟩ : ∃ pairs, text = '#' :: pairs := by
      unfold parse? at h
      split at h
      · exact ⟨_, rfl⟩
      · exact ⟨_, rfl⟩
      · cases h
    rw [parse?_cons, Option.bind_eq_some_iff] at h
    obtain ⟨values, hvalues, hcolor⟩ := h
    exact ⟨pairs, values, rfl, hvalues, hcolor⟩
  · rintro ⟨pairs, values, rfl, hvalues, hcolor⟩
    rw [parse?_cons, hvalues, Option.bind_some, hcolor]

/-- There is a color for three channels and for four. -/
theorem exists_ofChannels?_iff {values : List UInt8} :
    (∃ color, ofChannels? values = some color) ↔ values.length = 3 ∨ values.length = 4 := by
  unfold ofChannels?
  split
  · simp
  · simp
  case h_3 hthree hfour =>
    have hlength : ¬ (values.length = 3 ∨ values.length = 4) := by
      rintro (h | h)
      · obtain ⟨red, green, blue, rfl⟩ := List.length_eq_three.mp h
        exact hthree red green blue rfl
      · match values, h with
        | [red, green, blue, alpha], _ => exact hfour red green blue alpha rfl
    simp [hlength]

/-- The digits of full opacity. -/
theorem channelDigits_eq_iff {value : UInt8} : channelDigits value = ['F', 'F'] ↔ value = 255 := by
  constructor
  · intro h
    obtain ⟨hhigh, hlow⟩ : upperHexDigit (value.toNat / 16) = 'F' ∧
        upperHexDigit (value.toNat % 16) = 'F' := by
      simpa [channelDigits] using h
    have hread := channel?_channelDigits value
    have hopaque : channel? 'F' 'F' = some 255 := by decide
    rw [hhigh, hlow, hopaque] at hread
    exact (Option.some.inj hread).symm
  · rintro rfl
    decide

/-- A color is written by its channels. -/
theorem hex_of_ofChannels? {values : List UInt8} {color : Color}
    (h : ofChannels? values = some color) :
    color.hex = withoutOpacity ('#' :: values.flatMap channelDigits) := by
  unfold ofChannels? at h
  split at h
  case h_1 red green blue =>
    obtain rfl := Option.some.inj h
    simp [hex, rgb, withoutOpacity, channelDigits]
  case h_2 red green blue alpha =>
    obtain rfl := Option.some.inj h
    by_cases hopaque : alpha = 255
    · have hfull : upperHexDigit 15 = 'F' := by decide
      simp [hex, withoutOpacity, channelDigits, hopaque, hfull]
    · have hpartial : ¬ (upperHexDigit (alpha.toNat / 16) = 'F' ∧
          upperHexDigit (alpha.toNat % 16) = 'F') := by
        simpa [channelDigits] using mt channelDigits_eq_iff.mp hopaque
      simp [hex, withoutOpacity, channelDigits, hopaque, hpartial]
  case h_3 => cases h

/-- The channels that are written. -/
theorem exists_channels_hex (color : Color) :
    ∃ values, color.hex = '#' :: values.flatMap channelDigits ∧
      ofChannels? values = some color := by
  obtain ⟨red, green, blue, alpha⟩ := color
  by_cases hopaque : alpha = 255
  · exact ⟨[red, green, blue], by simp [hex, hopaque], by simp [ofChannels?, rgb, hopaque]⟩
  · exact ⟨[red, green, blue, alpha], by simp [hex, hopaque], rfl⟩

/-- Written channels are read back. -/
theorem channels?_flatMap_channelDigits (values : List UInt8) :
    channels? (values.flatMap channelDigits) = some values := by
  induction values with
  | nil => rfl
  | cons value values ih =>
    rw [List.flatMap_cons, channelDigits, List.cons_append, List.cons_append, List.nil_append,
      channels?, channel?_channelDigits, ih]
    rfl

/-- Every color is read back from its text. -/
theorem parse?_hex (color : Color) : parse? color.hex = some color := by
  obtain ⟨values, hhex, hcolor⟩ := exists_channels_hex color
  exact parse?_eq_some_iff.mpr ⟨_, values, hhex, channels?_flatMap_channelDigits values, hcolor⟩

/-! ## The texts that stand for colors -/

/-- A text that has no sign is its unsigned text. -/
theorem unsignedPairs_eq_self {pairs : Text} (h : '+' ∉ pairs) : unsignedPairs pairs = pairs := by
  fun_induction unsignedPairs pairs with
  | case1 first second rest ih =>
    simp only [List.mem_cons, not_or] at h
    rw [if_neg (Ne.symm h.1), ih h.2.2]
  | case2 => rfl

theorem unsigned_eq_self {text : Text} (h : '+' ∉ text) : unsigned text = text := by
  cases text with
  | nil => rfl
  | cons mark pairs =>
    rw [unsigned, unsignedPairs_eq_self fun hmem => h (List.mem_cons_of_mem _ hmem)]

/-- A text stands for a color if it is hexadecimal without its signs. -/
theorem exists_parse?_iff {text : Text} :
    (∃ color, parse? text = some color) ↔ IsHex (unsigned text) := by
  have hunsigned {digits : Text} :
      unsigned text = '#' :: digits ↔
        ∃ pairs, text = '#' :: pairs ∧ unsignedPairs pairs = digits := by
    cases text with
    | nil => simp [unsigned]
    | cons mark pairs => simp [unsigned]
  constructor
  · rintro ⟨color, h⟩
    obtain ⟨pairs, values, rfl, hvalues, hcolor⟩ := parse?_eq_some_iff.mp h
    have hlength := length_of_channels? hvalues
    have hcount := exists_ofChannels?_iff.mp ⟨color, hcolor⟩
    have hdigits := exists_channels?_iff.mp ⟨values, hvalues⟩
    refine ⟨unsignedPairs pairs, rfl, ?_, hdigits.2⟩
    rw [length_unsignedPairs]
    omega
  · rintro ⟨digits, htext, hlength, hdigits⟩
    obtain ⟨pairs, rfl, rfl⟩ := hunsigned.mp htext
    rw [length_unsignedPairs] at hlength
    obtain ⟨values, hvalues⟩ := exists_channels?_iff.mpr ⟨by omega, hdigits⟩
    have hcount := length_of_channels? hvalues
    obtain ⟨color, hcolor⟩ := exists_ofChannels?_iff.mpr (by omega : values.length = 3 ∨ _)
    exact ⟨color, parse?_eq_some_iff.mpr ⟨pairs, values, rfl, hvalues, hcolor⟩⟩

/-- What is written for a color that was read. -/
theorem hex_of_parse? {text : Text} {color : Color} (h : parse? text = some color) :
    color.hex = withoutOpacity ((unsigned text).map Char.toUpper) := by
  obtain ⟨pairs, values, rfl, hvalues, hcolor⟩ := parse?_eq_some_iff.mp h
  rw [hex_of_ofChannels? hcolor, flatMap_channelDigits_of_channels? hvalues]
  rfl

/--
A text stands for a color exactly if it is `#` and six or eight hexadecimal digits, once a zero
is written for every plus sign that leads a pair.  Then that text in capitals is written for the
color, without the digits of full opacity.  Every color is read back from its text.
-/
theorem parse?_unsigned (text : Text) :
    ((∃ color, parse? text = some color) ↔ IsHex (unsigned text)) ∧
      (∀ color, parse? text = some color →
        color.hex = withoutOpacity ((unsigned text).map Char.toUpper)) ∧
      ('+' ∉ text → unsigned text = text) ∧ ∀ color : Color, parse? color.hex = some color :=
  ⟨exists_parse?_iff, fun _ => hex_of_parse?, unsigned_eq_self, parse?_hex⟩

/-- A pair with a sign is written with a zero, and small letters as capitals. -/
theorem parse?_unsigned_sign :
    parse? ['#', '+', '1', 'b', 'c', '2', '3', 'f', 'F'] = some ⟨1, 188, 35, 255⟩ ∧
      hex ⟨1, 188, 35, 255⟩ = ['#', '0', '1', 'B', 'C', '2', '3'] ∧
      '+' ∉ ['#', '0', '1', 'b', 'c', '2', '3'] ∧
      unsigned ['#', '0', '1', 'b', 'c', '2', '3'] = ['#', '0', '1', 'b', 'c', '2', '3'] := by
  have hread : parse? ['#', '+', '1', 'b', 'c', '2', '3', 'f', 'F'] = some ⟨1, 188, 35, 255⟩ := by
    decide
  have hplain : '+' ∉ ['#', '0', '1', 'b', 'c', '2', '3'] := by decide
  exact ⟨hread, (parse?_unsigned _).2.1 _ hread, hplain, (parse?_unsigned _).2.2.1 hplain⟩

/-- A text with signs stands for a color without being hexadecimal. -/
theorem parse?_not_isHex :
    parse? ['#', '+', '1', '+', '2', '+', '3'] = some (rgb 1 2 3) ∧
      ¬ IsHex ['#', '+', '1', '+', '2', '+', '3'] := by
  refine ⟨by decide, ?_⟩
  rintro ⟨digits, htext, -, hdigits⟩
  obtain rfl := (List.cons.inj htext).2
  exact absurd (hdigits '+' List.mem_cons_self) (by decide)

end Color

end ScratchEditor

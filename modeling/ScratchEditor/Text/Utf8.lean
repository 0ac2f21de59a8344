import ScratchEditor.Text.Basic

/-!
# UTF-8

Texts come from files and from running programs as bytes.  Decoding reads one
character at a time: a lead byte fixes how many continuation bytes follow and
the range of the first of them.  Bytes that begin no character are replaced,
one replacement for each longest piece that could still have begun one.

A stream arrives in pieces that may cut a character, so the bytes of a
character cut short at the end of a piece are carried over to the next one.

Main definitions:

- `Utf8.read`: the first character of some bytes, or how its encoding fails.
- `Utf8.decodeLossy` and `Utf8.decode?`: whole texts, with and without
  replacement.
- `Utf8.encode`: the bytes of a text.
- `Utf8.cutLength`: how many bytes at the end wait for the next piece.
- `Utf8.Stream`: the bytes waiting, fed piece by piece.
-/

namespace ScratchEditor

/-- A sequence of bytes. -/
abbrev Bytes := List UInt8

namespace Utf8

/-- What stands in for bytes that encode nothing. -/
def replacement : Char :=
  '\uFFFD'

/-! ## Reading one character -/

/-- How the encoding of a character at the beginning of some bytes turns out. -/
inductive Reading
  /-- A character, and how many bytes encode it. -/
  | char (c : Char) (width : Nat)
  /-- No character begins with these bytes; the first `width` of them go together. -/
  | broken (width : Nat)
  /-- The bytes end inside a character. -/
  | cut

/-- What a lead byte announces: its own bits, the continuation bytes that follow, and the range
of the first of them. -/
structure Lead where
  bits : Nat
  tails : Nat
  low : Nat
  high : Nat

/-- The lead byte of a character of two bytes or more. -/
def lead? (b : UInt8) : Option Lead :=
  let n := b.toNat
  if n < 0xC2 then none
  else if n < 0xE0 then some ⟨n - 0xC0, 1, 0x80, 0xBF⟩
  else if n = 0xE0 then some ⟨0, 2, 0xA0, 0xBF⟩
  else if n = 0xED then some ⟨0xD, 2, 0x80, 0x9F⟩
  else if n < 0xF0 then some ⟨n - 0xE0, 2, 0x80, 0xBF⟩
  else if n = 0xF0 then some ⟨0, 3, 0x90, 0xBF⟩
  else if n < 0xF4 then some ⟨n - 0xF0, 3, 0x80, 0xBF⟩
  else if n = 0xF4 then some ⟨4, 3, 0x80, 0x8F⟩
  else none

/-- Continues a character whose bits so far are `bits`, after `width` bytes of it. -/
def readTails (bits width : Nat) : Nat → Nat → Nat → Bytes → Reading
  | 0, _, _, _ => .char (Char.ofNat bits) width
  | _ + 1, _, _, [] => .cut
  | tails + 1, low, high, b :: rest =>
    if low ≤ b.toNat ∧ b.toNat ≤ high then
      readTails (bits * 64 + (b.toNat - 0x80)) (width + 1) tails 0x80 0xBF rest
    else .broken width

/-- Reads a character from a lead byte and what follows it. -/
def read (b : UInt8) (rest : Bytes) : Reading :=
  if b.toNat < 0x80 then .char (Char.ofNat b.toNat) 1
  else
    match lead? b with
    | none => .broken 1
    | some lead => readTails lead.bits 1 lead.tails lead.low lead.high rest

/-! ## Whole texts -/

/-- The text that bytes encode, with a replacement for every piece that encodes nothing. -/
def decodeLossyFrom : Nat → Bytes → Text
  | 0, _ => []
  | _ + 1, [] => []
  | fuel + 1, b :: rest =>
    match read b rest with
    | .char c width => c :: decodeLossyFrom fuel (rest.drop (width - 1))
    | .broken width => replacement :: decodeLossyFrom fuel (rest.drop (width - 1))
    | .cut => [replacement]

/-- The text that bytes encode, with a replacement for every piece that encodes nothing. -/
def decodeLossy (bytes : Bytes) : Text :=
  decodeLossyFrom bytes.length bytes

/-- The text that bytes encode, if all of them encode one. -/
def decodeFrom? : Nat → Bytes → Option Text
  | _, [] => some []
  | 0, _ => none
  | fuel + 1, b :: rest =>
    match read b rest with
    | .char c width => (decodeFrom? fuel (rest.drop (width - 1))).map (c :: ·)
    | _ => none

/-- The text that bytes encode, if all of them encode one. -/
def decode? (bytes : Bytes) : Option Text :=
  decodeFrom? bytes.length bytes

/-- The continuation byte that holds the six bits of a number above a power of 64. -/
def tailByte (n : Nat) : UInt8 :=
  UInt8.ofNat (0x80 + n % 64)

/-- The bytes of a character. -/
def encodeChar (c : Char) : Bytes :=
  let n := c.toNat
  if n < 0x80 then [UInt8.ofNat n]
  else if n < 0x800 then [UInt8.ofNat (0xC0 + n / 64), tailByte n]
  else if n < 0x10000 then [UInt8.ofNat (0xE0 + n / 4096), tailByte (n / 64), tailByte n]
  else
    [UInt8.ofNat (0xF0 + n / 262144), tailByte (n / 4096), tailByte (n / 64), tailByte n]

/-- The bytes of a text. -/
def encode (text : Text) : Bytes :=
  text.flatMap encodeChar

/-! ## Streams -/

/-- A continuation byte begins no character. -/
def isTail (b : UInt8) : Bool :=
  0x80 ≤ b.toNat && b.toNat < 0xC0

/--
Looks for the last byte that begins a character, among the last few bytes given
in reverse, with `after` holding the bytes behind them.
-/
def cutLengthFrom : Bytes → Bytes → Nat
  | [], _ => 0
  | b :: before, after =>
    if isTail b then cutLengthFrom before (b :: after)
    else
      match read b after with
      | .cut => after.length + 1
      | _ => 0

/-- How many bytes at the end belong to a character that the next piece may complete. -/
def cutLength (bytes : Bytes) : Nat :=
  cutLengthFrom (bytes.reverse.take 3) []

/-- A stream of bytes being decoded: the bytes that wait for the next piece. -/
structure Stream where
  waiting : Bytes

namespace Stream

/-- A stream nothing has arrived on. -/
def empty : Stream :=
  ⟨[]⟩

/-- The stream with a further piece behind what waits. -/
def push (stream : Stream) (piece : Bytes) : Stream :=
  ⟨stream.waiting ++ piece⟩

/-- Takes the text decodable so far and leaves a character cut short in place. -/
def take (stream : Stream) : Text × Stream :=
  let keep := stream.waiting.length - cutLength stream.waiting
  (decodeLossy (stream.waiting.take keep), ⟨stream.waiting.drop keep⟩)

/-- Takes everything at the end of the stream, cut or not. -/
def finish (stream : Stream) : Text :=
  decodeLossy stream.waiting

/-- The texts that the pieces of a stream give one after the other, and the one at its end. -/
def texts (stream : Stream) : List Bytes → List Text
  | [] => [stream.finish]
  | piece :: rest =>
    let (text, next) := (stream.push piece).take
    text :: texts next rest

@[simp]
theorem waiting_push (stream : Stream) (piece : Bytes) :
    (stream.push piece).waiting = stream.waiting ++ piece :=
  rfl

end Stream

end Utf8

end ScratchEditor

import ScratchEditor.Text.Basic
import ScratchEditor.Text.Decimal

/-!
# Edit buffers

A buffer holds the text being edited.  Every operation takes character offsets
and names the offset it cannot use; an operation that fails leaves the buffer
as it was.

Main definitions:

- `BufferError`: the offsets an operation cannot use, with their wording.
- `Buffer.insert`, `Buffer.remove`, `Buffer.replace`, `Buffer.slice`.
- `Buffer.lineCount`: the number of lines, counting every Unicode line break.
-/

namespace ScratchEditor

/-- Why an operation on a buffer of `size` characters cannot use its offsets. -/
inductive BufferError
  /-- The range ends before it starts. -/
  | reversed (start stop : Nat)
  /-- The range ends past the text. -/
  | stopOutside (stop size : Nat)
  /-- There is no character at the offset. -/
  | noCharAt (offset size : Nat)
  /-- The text does not reach the place of insertion. -/
  | insertOutside (offset size : Nat)
deriving DecidableEq

/-- The size of a buffer as messages mention it. -/
def bufferSizeNote (size : Nat) : String :=
  s!"(buffer has {size} chars)"

/-- How the error is worded. -/
def BufferError.message : BufferError → String
  | .reversed start stop => s!"invalid range: start ({start}) > end ({stop})"
  | .stopOutside stop size => s!"range end {stop} out of bounds {bufferSizeNote size}"
  | .noCharAt offset size => s!"char index {offset} out of bounds {bufferSizeNote size}"
  | .insertOutside offset size =>
    s!"insert position {offset} out of bounds {bufferSizeNote size}"

/-- The text under edit. -/
structure Buffer where
  text : Text
deriving DecidableEq

namespace Buffer

/-- The buffer without text. -/
def empty : Buffer :=
  ⟨[]⟩

/-- The number of characters. -/
def size (buffer : Buffer) : Nat :=
  buffer.text.length

/-! ## Line count -/

/-- The characters that break a line on their own, besides the carriage return. -/
def isLineBreak (c : Char) : Bool :=
  c == '\n' || c == '\x0b' || c == '\x0c' || c == '\u0085' || c == '\u2028' || c == '\u2029'

/-- The line breaks of a text; a carriage return and a line feed after it break one line. -/
def lineBreaks : Text → Nat
  | [] => 0
  | '\r' :: '\n' :: rest => lineBreaks rest + 1
  | '\r' :: rest => lineBreaks rest + 1
  | c :: rest => if isLineBreak c then lineBreaks rest + 1 else lineBreaks rest

/-- The number of lines: one more than there are line breaks. -/
def lineCount (buffer : Buffer) : Nat :=
  lineBreaks buffer.text + 1

/-! ## Reading -/

/-- Checks that a range is in order and inside the text. -/
def checkRange (buffer : Buffer) (start stop : Nat) : Except BufferError Unit :=
  if stop < start then .error (.reversed start stop)
  else if buffer.size < stop then .error (.stopOutside stop buffer.size)
  else .ok ()

/-- The character at an offset. -/
def charAt (buffer : Buffer) (offset : Nat) : Except BufferError Char :=
  match buffer.text[offset]? with
  | some c => .ok c
  | none => .error (.noCharAt offset buffer.size)

/-- The last character, if there is one. -/
def last? (buffer : Buffer) : Option Char :=
  buffer.text.getLast?

/-- The characters from one offset up to another. -/
def slice (buffer : Buffer) (start stop : Nat) : Except BufferError Text := do
  buffer.checkRange start stop
  return buffer.text.slice (Extent.between start stop)

/-- Everything before an offset. -/
def before (buffer : Buffer) (offset : Nat) : Except BufferError Text :=
  buffer.slice 0 offset

/-! ## Writing -/

/-- The buffer with a text put in at an offset. -/
def insert (buffer : Buffer) (offset : Nat) (text : Text) : Except BufferError Buffer :=
  if buffer.size < offset then .error (.insertOutside offset buffer.size)
  else .ok ⟨buffer.text.take offset ++ text ++ buffer.text.drop offset⟩

/-- The buffer without the characters from one offset up to another. -/
def remove (buffer : Buffer) (start stop : Nat) : Except BufferError Buffer := do
  buffer.checkRange start stop
  return ⟨buffer.text.take start ++ buffer.text.drop stop⟩

/-- The buffer with a range replaced by a text. -/
def replace (buffer : Buffer) (start stop : Nat) (text : Text) : Except BufferError Buffer := do
  let removed ← buffer.remove start stop
  removed.insert start text

@[simp]
theorem size_mk (text : Text) : Buffer.size ⟨text⟩ = text.length :=
  rfl

@[simp]
theorem lineCount_empty : empty.lineCount = 1 :=
  rfl

/-! ## Ranges that fit -/

variable {buffer : Buffer} {start stop offset : Nat}

/-- A range is accepted if it is in order and inside the text. -/
theorem checkRange_eq_ok_iff :
    buffer.checkRange start stop = .ok () ↔ start ≤ stop ∧ stop ≤ buffer.size := by
  unfold checkRange
  by_cases hreversed : stop < start
  · rw [if_pos hreversed]
    exact iff_of_false nofun fun h => absurd h.1 (Nat.not_le.mpr hreversed)
  · rw [if_neg hreversed]
    by_cases houtside : buffer.size < stop
    · rw [if_pos houtside]
      exact iff_of_false nofun fun h => absurd h.2 (Nat.not_le.mpr houtside)
    · rw [if_neg houtside]
      exact iff_of_true rfl ⟨Nat.not_lt.mp hreversed, Nat.not_lt.mp houtside⟩

theorem insert_of_le (text : Text) (h : offset ≤ buffer.size) :
    buffer.insert offset text =
      .ok ⟨buffer.text.take offset ++ (text ++ buffer.text.drop offset)⟩ := by
  rw [insert, if_neg (Nat.not_lt.mpr h), List.append_assoc]

theorem slice_of_le (hstart : start ≤ stop) (hstop : stop ≤ buffer.size) :
    buffer.slice start stop = .ok (buffer.text.slice (Extent.between start stop)) := by
  rw [slice, checkRange_eq_ok_iff.mpr ⟨hstart, hstop⟩]
  rfl

theorem before_of_le (h : offset ≤ buffer.size) :
    buffer.before offset = .ok (buffer.text.take offset) :=
  slice_of_le (Nat.zero_le offset) h

theorem remove_of_le (hstart : start ≤ stop) (hstop : stop ≤ buffer.size) :
    buffer.remove start stop = .ok ⟨buffer.text.take start ++ buffer.text.drop stop⟩ := by
  rw [remove, checkRange_eq_ok_iff.mpr ⟨hstart, hstop⟩]
  rfl

/-- What is left when a range is removed reaches the place where the range began. -/
theorem insert_removed (text : Text) (hstart : start ≤ stop) (hstop : stop ≤ buffer.size) :
    insert ⟨buffer.text.take start ++ buffer.text.drop stop⟩ start text =
      .ok ⟨buffer.text.take start ++ (text ++ buffer.text.drop stop)⟩ := by
  have hlength : (buffer.text.take start).length = start := by
    rw [List.length_take]
    exact Nat.min_eq_left (Nat.le_trans hstart hstop)
  have hsize : start ≤ size ⟨buffer.text.take start ++ buffer.text.drop stop⟩ := by
    rw [size_mk, List.length_append, hlength]
    exact Nat.le_add_right _ _
  rw [insert_of_le text hsize, List.take_left' hlength, List.drop_left' hlength]

theorem replace_of_le (text : Text) (hstart : start ≤ stop) (hstop : stop ≤ buffer.size) :
    buffer.replace start stop text =
      .ok ⟨buffer.text.take start ++ (text ++ buffer.text.drop stop)⟩ := by
  rw [replace, remove_of_le hstart hstop]
  exact insert_removed text hstart hstop

end Buffer

end ScratchEditor

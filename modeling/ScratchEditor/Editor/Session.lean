import ScratchEditor.Editor.Gutter
import ScratchEditor.Editor.JumpQueue
import ScratchEditor.Indent.Detect
import ScratchEditor.Indent.Keystroke
import ScratchEditor.Text.Buffer
import ScratchEditor.Token.Refresh

/-!
# Editing sessions

A session holds a text and a caret.  Keystrokes go through the rules of
indentation, every change is reported to the highlighter, the text is kept
ending in a line feed if the settings say so, and jump requests move the caret.

Main definitions:

- `Session` and `Session.ofSettings`.
- `Session.load`, `setText`, `typeChar`, `insert`, `deleteBackward`,
  `setCaret`, `jumpTo`, `applyPendingJumps`: the operations, each with the spans
  to draw or the selection to show.
- `Session.press`: a keystroke that may ask for more blanks than there is room for.
-/

namespace ScratchEditor

/-- A script under edit. -/
structure Session where
  buffer : Buffer
  /-- The offset of the caret. -/
  caret : Nat
  indentUnit : IndentUnit
  highlighter : Highlighter
  keepFinalNewline : Bool
  detectsIndent : Bool
  jumps : JumpQueue

namespace Session

/-- A session without text. -/
def ofSettings (settings : Settings) : Session where
  buffer := .empty
  caret := 0
  indentUnit := settings.editor.indentUnit
  highlighter := .ofSettings settings
  keepFinalNewline := settings.editor.keepFinalNewline
  detectsIndent := settings.editor.detectIndent
  jumps := .empty

/-- The text under edit. -/
def text (session : Session) : Text :=
  session.buffer.text

/-- Where the caret stands. -/
def caretSpot (session : Session) : Spot :=
  session.text.spotAt session.caret

/-! ## Reporting changes -/

/-- The spans to draw after a change that produced an extent of the text. -/
def report (session : Session) (extent : Extent) (delta : Int) : List Span :=
  (session.highlighter.refresh session.text (.ofText extent delta)).getD []

/-- Whether a line feed is missing at the end. -/
def lacksFinalNewline (session : Session) : Bool :=
  session.keepFinalNewline && session.buffer.last? != some '\n'

/-- Adds the line feed that is missing at the end; the caret stays where it is. -/
def endLine (session : Session) : Session × List Span :=
  if session.lacksFinalNewline then
    let ended := { session with buffer := ⟨session.text ++ ['\n']⟩ }
    (ended, ended.report ⟨session.buffer.size, 1⟩ 1)
  else (session, [])

/-- Reports a change, then adds the line feed that is missing at the end. -/
def settle (session : Session) (extent : Extent) (delta : Int) : Session × List Span :=
  let spans := session.report extent delta
  let (ended, more) := session.endLine
  (ended, spans ++ more)

/-! ## Whole texts -/

/-- The unit a newly opened text is indented by, if it is looked for and found. -/
def unitFor (session : Session) (text : Text) : IndentUnit :=
  if session.detectsIndent then (detectIndent text).getD session.indentUnit
  else session.indentUnit

/-- Opens a text, with the caret at its beginning. -/
def load (session : Session) (text : Text) : Session × List Span :=
  let opened :=
    { session with buffer := ⟨text⟩, caret := 0, indentUnit := session.unitFor text }
  let (ended, _) := opened.endLine
  (ended, ended.highlighter.refreshAll ended.text)

/-- Puts a text in place of the whole, as a program does. -/
def setText (session : Session) (text : Text) : Session × List Span :=
  let replaced := { session with buffer := ⟨text⟩, caret := min session.caret text.length }
  replaced.settle (Extent.whole text) (Int.ofNat text.length - Int.ofNat session.buffer.size)

/-! ## Edits at the caret -/

/-- Inserts a text at the caret as it is. -/
def insert (session : Session) (text : Text) : Except BufferError (Session × List Span) := do
  let buffer ← session.buffer.insert session.caret text
  let edited := { session with buffer := buffer, caret := session.caret + text.length }
  return edited.settle ⟨session.caret, text.length⟩ text.length

/-- Types a character at the caret. -/
def typeChar (session : Session) (typed : Char) : Except BufferError (Session × List Span) := do
  let before ← session.buffer.before session.caret
  match session.indentUnit.onKey typed before with
  | .asTyped => session.insert [typed]
  | .instead deleted inserted =>
    let start := session.caret - deleted
    let buffer ← session.buffer.replace start session.caret inserted
    let edited := { session with buffer := buffer, caret := start + inserted.length }
    return edited.settle ⟨start, inserted.length⟩
      (Int.ofNat inserted.length - Int.ofNat deleted)

/-- Types a character at the caret if there is room for the blanks it asks for.  Otherwise there
is no session any more. -/
def press (session : Session) (typed : Char) :
    Except BufferError (Option (Session × List Span)) := do
  let before ← session.buffer.before session.caret
  if session.indentUnit.hasRoomFor typed before then
    return some (← session.typeChar typed)
  else return none

/-- Deletes the character before the caret, if there is one. -/
def deleteBackward (session : Session) : Except BufferError (Session × List Span) :=
  if session.caret = 0 then .ok (session, [])
  else do
    let buffer ← session.buffer.remove (session.caret - 1) session.caret
    let edited := { session with buffer := buffer, caret := session.caret - 1 }
    return edited.settle (Extent.caret edited.caret) (-1)

/-! ## Moving the caret -/

/-- Moves the caret to an offset, at most to the end. -/
def setCaret (session : Session) (offset : Nat) : Session :=
  { session with caret := min offset session.buffer.size }

/-- Moves the caret to a spot and shows it. -/
def jumpTo (session : Session) (target : Spot) : Session × Reveal :=
  let reveal := target.revealIn session.text
  ({ session with caret := reveal.selection.start }, reveal)

/-- Follows the latest of the jump requests that wait. -/
def applyPendingJumps (session : Session) : Session × Option Reveal :=
  let (target, jumps) := session.jumps.latest
  let drained := { session with jumps := jumps }
  match target with
  | none => (drained, none)
  | some target =>
    let (moved, reveal) := drained.jumpTo target
    (moved, some reveal)

/-! ## What is shown -/

/-- The gutter beside the lines in view, with the line of the caret marked. -/
def gutter (session : Session) (view : Extent) : List GutterRow :=
  gutterRows session.text view [Extent.caret session.caret]

/-- The spans of the whole text. -/
def highlight (session : Session) : List Span :=
  session.highlighter.refreshAll session.text

end Session

end ScratchEditor

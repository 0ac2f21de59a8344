import ScratchEditor.Indent.Depth
import ScratchEditor.Indent.Unit

/-!
# Keystrokes that indent

Two keys do more than insert themselves.  A line feed inside braces is followed
by one unit for every open brace, and a closing brace typed right after a unit
takes the place of that unit.

Main definitions:

- `Typing`: what becomes of a keystroke.
- `IndentUnit.onNewline`, `IndentUnit.onCloseBrace`, `IndentUnit.onKey`.
- `levelsAsked` and `IndentUnit.hasRoomFor`: the levels of indentation a key asks for, and
  whether there is room for their blanks.
-/

namespace ScratchEditor

/-- What becomes of a keystroke. -/
inductive Typing
  /-- The character is inserted as it was typed. -/
  | asTyped
  /-- A text is inserted, in place of so many characters before the caret. -/
  | instead (deleted : Nat) (inserted : Text)
deriving DecidableEq

namespace IndentUnit

/-- A line feed inside braces brings the indentation of the new line with it. -/
def onNewline (unit : IndentUnit) (before : Text) : Typing :=
  let depth := indentDepth before
  if depth = 0 then .asTyped else .instead 0 ('\n' :: unit.times depth)

/-- A closing brace right after one unit of indentation replaces it. -/
def onCloseBrace (unit : IndentUnit) (before : Text) : Typing :=
  if (unit.times 1).isSuffixOf before then .instead unit.width ['}'] else .asTyped

/-- What a key does, given the text before the caret. -/
def onKey (unit : IndentUnit) (typed : Char) (before : Text) : Typing :=
  if typed = '\n' then unit.onNewline before
  else if typed = '}' then unit.onCloseBrace before
  else .asTyped

end IndentUnit

/-- How many levels of indentation a key asks for: a line feed as many as braces are open, and a
closing brace one, to see whether it stands before the caret. -/
def levelsAsked (typed : Char) (before : Text) : Nat :=
  if typed = '\n' then indentDepth before else if typed = '}' then 1 else 0

namespace IndentUnit

/-- Whether there is room for the blanks a key asks for.  Without it the program ends. -/
def hasRoomFor (unit : IndentUnit) (typed : Char) (before : Text) : Bool :=
  unit.hasRoom (levelsAsked typed before)

variable {unit : IndentUnit} {typed : Char} {before : Text}

/-- A line feed inside braces takes nothing away. -/
theorem onKey_newline (h : 0 < indentDepth before) :
    unit.onKey '\n' before = .instead 0 ('\n' :: unit.times (indentDepth before)) := by
  have hline : unit.onKey '\n' before = unit.onNewline before := rfl
  rw [hline, onNewline, if_neg (Nat.ne_of_gt h)]

/-- A closing brace behind a unit takes its place. -/
theorem onKey_brace (h : unit.times 1 <:+ before) :
    unit.onKey '}' before = .instead unit.width ['}'] := by
  have hbrace : unit.onKey '}' before = unit.onCloseBrace before := rfl
  rw [hbrace, onCloseBrace, if_pos (List.isSuffixOf_iff_suffix.mpr h)]

/-- Any other key inserts itself. -/
theorem onKey_of_not (hopens : ¬ (typed = '\n' ∧ 0 < indentDepth before))
    (hcloses : ¬ (typed = '}' ∧ unit.times 1 <:+ before)) :
    unit.onKey typed before = .asTyped := by
  unfold onKey
  by_cases hfeed : typed = '\n'
  · have hdepth : indentDepth before = 0 :=
      Nat.eq_zero_of_not_pos fun hpos => hopens ⟨hfeed, hpos⟩
    rw [if_pos hfeed, onNewline, if_pos hdepth]
  · rw [if_neg hfeed]
    by_cases hbrace : typed = '}'
    · have hsuffix : ¬ (unit.times 1).isSuffixOf before = true := fun h =>
        hcloses ⟨hbrace, List.isSuffixOf_iff_suffix.mp h⟩
      rw [if_pos hbrace, onCloseBrace, if_neg hsuffix]
    · rw [if_neg hbrace]

end IndentUnit

end ScratchEditor

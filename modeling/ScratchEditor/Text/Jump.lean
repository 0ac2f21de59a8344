import ScratchEditor.Text.Blank
import ScratchEditor.Text.Decimal
import ScratchEditor.Text.Quoted
import ScratchEditor.Text.Spot

/-!
# Jump payloads

A link in the output carries the spot it leads to as the text `row,column`.
Following it selects the empty extent at that spot and scrolls there.

Main definitions:

- `Spot.payload` and `Spot.parse`: the text of a spot and back.
- `JumpError`: what is wrong with a payload.
- `Spot.revealIn`: the selection that shows a spot.
-/

namespace ScratchEditor

/-- What is wrong with a payload. -/
inductive JumpError
  /-- There is no comma. -/
  | noComma (payload : Text)
  /-- The part before the comma is not a count. -/
  | badRow (payload : Text) (cause : CountError)
  /-- The part after the comma is not a count. -/
  | badColumn (payload : Text) (cause : CountError)
deriving DecidableEq

/-- How the error is worded. -/
def JumpError.message : JumpError → String
  | .noComma payload =>
    "jump payload " ++ String.ofList payload.quoted ++ " is not \"row,column\""
  | .badRow payload cause =>
    "invalid row in jump payload " ++ String.ofList payload.quoted ++ ": " ++ cause.message
  | .badColumn payload cause =>
    "invalid column in jump payload " ++ String.ofList payload.quoted ++ ": " ++ cause.message

/-- The parts of a text before and after its first comma. -/
def splitAtComma : Text → Option (Text × Text)
  | [] => none
  | c :: rest =>
    if c = ',' then some ([], rest)
    else (splitAtComma rest).map fun parts => (c :: parts.1, parts.2)

/-- The text of a link to a spot. -/
def Spot.payload (spot : Spot) : Text :=
  decimal spot.row ++ ',' :: decimal spot.column

/-- Reads the spot a link leads to; blanks around both numbers do not matter. -/
def Spot.parse (payload : Text) : Except JumpError Spot :=
  match splitAtComma payload with
  | none => .error (.noComma payload)
  | some (left, right) =>
    match readCount left.trim with
    | .error cause => .error (.badRow payload cause)
    | .ok row =>
      match readCount right.trim with
      | .error cause => .error (.badColumn payload cause)
      | .ok column => .ok ⟨row, column⟩

/-- The instruction to select an extent and to scroll it into view. -/
structure Reveal where
  selection : Extent
  scroll : Bool
deriving DecidableEq

/-- Shows a spot: an empty selection at its offset, scrolled into view. -/
def Spot.revealIn (spot : Spot) (text : Text) : Reveal :=
  ⟨Extent.caret (text.offsetOf spot), true⟩

/-- The two parts and the comma make up the text again. -/
theorem splitAtComma_eq_some {text left right : Text}
    (h : splitAtComma text = some (left, right)) : text = left ++ ',' :: right := by
  induction text generalizing left with
  | nil => simp [splitAtComma] at h
  | cons c rest ih =>
    simp only [splitAtComma] at h
    split at h
    · rename_i hc
      simp only [Option.some.injEq, Prod.mk.injEq] at h
      rw [← h.1, ← h.2, hc]
      rfl
    · simp only [Option.map_eq_some_iff] at h
      obtain ⟨parts, hparts, heq⟩ := h
      simp only [Prod.mk.injEq] at heq
      have hrest : rest = parts.1 ++ ',' :: right := ih (by rw [hparts, ← heq.2])
      rw [← heq.1, hrest]
      rfl

end ScratchEditor

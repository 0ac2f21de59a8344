import ScratchEditor.Token.Classifier

/-!
# Highlighting after edits

Every change of the text is reported with the extent it produced.  The lines it
touches are classified again, unless no character changed, or the change put a
text of the same length in place of the whole and such changes are not
highlighted.

Main definitions:

- `Edit`: a change of the text.
- `Highlighter.refresh`: the spans after a change, if it is highlighted.
- `Highlighter.refreshAll`: the spans of a whole text.
-/

namespace ScratchEditor

/-- A change of a text. -/
structure Edit where
  /-- The stretch of the new text that the change produced. -/
  extent : Extent
  /-- By how many characters the text became longer. -/
  delta : Int
  /-- Whether characters changed and not only how they are drawn. -/
  changesText : Bool
deriving DecidableEq

/-- A change of characters. -/
def Edit.ofText (extent : Extent) (delta : Int) : Edit :=
  ⟨extent, delta, true⟩

/-- Whether a change put a text of the same length in place of the whole text. -/
def Edit.replacesAll (edit : Edit) (text : Text) : Bool :=
  edit.delta == 0 && edit.extent == Extent.whole text

/-- A classifier, and whether it looks at replacements of the whole text. -/
structure Highlighter where
  classifier : Classifier
  seesReplacement : Bool

namespace Highlighter

/-- The highlighter that settings give. -/
def ofSettings (settings : Settings) : Highlighter :=
  ⟨.ofSettings settings, settings.editor.highlightReplacement⟩

/-- Whether a change is highlighted. -/
def sees (highlighter : Highlighter) (text : Text) (edit : Edit) : Bool :=
  edit.changesText && (highlighter.seesReplacement || !edit.replacesAll text)

/-- The spans of the lines a change touches, if it is highlighted. -/
def refresh (highlighter : Highlighter) (text : Text) (edit : Edit) : Option (List Span) :=
  if highlighter.sees text edit then some (highlighter.classifier.classify text edit.extent)
  else none

/-- The spans of a whole text. -/
def refreshAll (highlighter : Highlighter) (text : Text) : List Span :=
  highlighter.classifier.classify text (Extent.whole text)

/-- A drawing of the text takes further spans behind those it has. -/
def draw (highlighter : Highlighter) (text : Text) (edit : Edit) (drawn : List Span) :
    List Span :=
  drawn ++ (highlighter.refresh text edit).getD []

end Highlighter

end ScratchEditor

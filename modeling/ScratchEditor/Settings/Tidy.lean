import ScratchEditor.Settings.Basic
import ScratchEditor.Text.Blank

/-!
# Tidying settings

Settings read from a file may hold values that make no sense.  Tidying brings
the unit of indentation into range, gives blank names their default, raises a
low output limit, and keeps of the keywords those that are one word, the first
of each.

Main definitions:

- `tidyKeywords` and `Settings.tidy`.
-/

namespace ScratchEditor

/-- The lowest limit for output that settings may ask for. -/
def leastOutputChars : Nat :=
  1024

/-- A name, or its default when the name is blank. -/
def nameOr (default_ name : Text) : Text :=
  if name.trim.isEmpty then default_ else name

/-- A keyword is one word: something is left of it between blanks, and no blank inside. -/
def isOneWord (keyword : Text) : Bool :=
  let word := keyword.trim
  !word.isEmpty && !word.any isBlank

/-- The keywords that are one word and differ, blanks around them apart, from those seen before. -/
def tidyKeywordsFrom (seen : List Text) : List Text → List Text
  | [] => []
  | keyword :: rest =>
    if isOneWord keyword && !seen.contains keyword.trim then
      keyword :: tidyKeywordsFrom (keyword.trim :: seen) rest
    else tidyKeywordsFrom seen rest

/-- The keywords that are kept. -/
def tidyKeywords (keywords : List Text) : List Text :=
  tidyKeywordsFrom [] keywords

/-- Settings for running whose values make sense. -/
def RunSettings.tidy (settings : RunSettings) : RunSettings where
  interpreter := nameOr defaultInterpreter settings.interpreter
  scriptFileName := nameOr defaultScriptFileName settings.scriptFileName
  scriptDirectory := settings.scriptDirectory
  maxOutputChars := max settings.maxOutputChars leastOutputChars

/-- Settings whose values make sense. -/
def Settings.tidy (settings : Settings) : Settings where
  editor := { settings.editor with indentUnit := settings.editor.indentUnit.clamp }
  run := settings.run.tidy
  theme := settings.theme
  keywords := tidyKeywords settings.keywords

end ScratchEditor

import ScratchEditor.Indent.Unit
import ScratchEditor.Settings.Color

/-!
# Settings

What a person may configure: how the editor behaves, how scripts are run, the
colors of the editor and of the output, and the keywords to highlight.  Every
value has a default.

Main definitions:

- `Settings` with its parts `EditorSettings`, `RunSettings`, `Theme`.
- `Settings.standard`: all defaults.
- `joinPath` and `RunSettings.scriptPath`: where a script is written.
-/

namespace ScratchEditor

/-! ## Editing -/

/-- How the editor behaves. -/
structure EditorSettings where
  /-- What one level of nesting inserts. -/
  indentUnit : IndentUnit
  /-- Whether a loaded file decides the unit. -/
  detectIndent : Bool
  /-- Whether the text is kept ending in a line feed. -/
  keepFinalNewline : Bool
  /-- Whether an assignment of a whole text of equal length is highlighted again. -/
  highlightReplacement : Bool
deriving DecidableEq

/-- The defaults for editing. -/
def EditorSettings.standard : EditorSettings :=
  ⟨.tab, false, true, false⟩

/-! ## Running -/

/-- How scripts are run. -/
structure RunSettings where
  /-- The program that is given the path of the script. -/
  interpreter : Text
  /-- The name of the file the script is written to. -/
  scriptFileName : Text
  /-- The directory of that file; the directory for temporary files if there is none. -/
  scriptDirectory : Option Text
  /-- How many characters of output are kept before the pane is emptied. -/
  maxOutputChars : Nat
deriving DecidableEq

/-- The interpreter unless another one is configured. -/
def defaultInterpreter : Text :=
  "swift".toList

/-- The name of the script file unless another one is configured. -/
def defaultScriptFileName : Text :=
  "scriptpad_script.swift".toList

/-- The defaults for running. -/
def RunSettings.standard : RunSettings :=
  ⟨defaultInterpreter, defaultScriptFileName, none, 1000000⟩

/--
The path of a file in a directory.  An absolute name stands for itself; the
separator is added unless the directory is empty or already ends in one.
-/
def joinPath (directory name : Text) : Text :=
  if name.head? = some '/' then name
  else if directory.isEmpty || directory.getLast? = some '/' then directory ++ name
  else directory ++ '/' :: name

/-- The path a script is written to before every run. -/
def RunSettings.scriptPath (settings : RunSettings) (temporary : Text) : Text :=
  joinPath (settings.scriptDirectory.getD temporary) settings.scriptFileName

/-! ## Colors -/

/-- The colors of the text under edit. -/
structure TokenColors where
  text : Color
  comment : Color
  string : Color
  character : Color
  number : Color
  keyword : Color
  typeName : Color
deriving DecidableEq

/-- The default colors of the text under edit. -/
def TokenColors.standard : TokenColors where
  text := .rgb 212 212 212
  comment := .rgb 108 121 134
  string := .rgb 252 106 93
  character := .rgb 208 191 105
  number := .rgb 208 191 105
  keyword := .rgb 252 95 163
  typeName := .rgb 93 216 255

/-- The colors of the output pane. -/
structure OutputColors where
  text : Color
  warning : Color
  error : Color
  exitSuccess : Color
  exitFailure : Color
deriving DecidableEq

/-- The default colors of the output pane. -/
def OutputColors.standard : OutputColors where
  text := .rgb 0 0 0
  warning := .rgb 255 166 0
  error := .rgb 204 0 0
  exitSuccess := .rgb 0 153 0
  exitFailure := .rgb 204 102 0

/-- All colors. -/
structure Theme where
  tokens : TokenColors
  output : OutputColors
deriving DecidableEq

/-- The default colors. -/
def Theme.standard : Theme :=
  ⟨.standard, .standard⟩

/-! ## All settings -/

/-- Everything a person may configure. -/
structure Settings where
  editor : EditorSettings
  run : RunSettings
  theme : Theme
  keywords : List Text
deriving DecidableEq

/-- The keywords highlighted unless others are configured. -/
def defaultKeywords : List Text :=
  ["class", "enum", "func", "import", "init", "let", "private", "protocol", "static", "struct",
    "var", "break", "case", "continue", "else", "for", "guard", "if", "return", "switch",
    "while", "nil", "self", "true", "false"].map String.toList

/-- All defaults. -/
def Settings.standard : Settings :=
  ⟨.standard, .standard, .standard, defaultKeywords⟩

end ScratchEditor

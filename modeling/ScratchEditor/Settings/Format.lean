import ScratchEditor.Json.Reader
import ScratchEditor.Json.Writer
import ScratchEditor.Settings.Basic
import ScratchEditor.Settings.Record

/-!
# Settings as JSON

Each part of the settings is a record.  Colors are strings, the unit of
indentation is `"Tabs"` or an object with the number of spaces, and the
directory of the script may be null.

Main definitions:

- `Settings.ofJson?` and `Settings.toJson`.
- `Settings.parse?` and `Settings.print`: the text of a settings file.
-/

namespace ScratchEditor

/-! ## Single values -/

namespace Json

/-- A truth value. -/
def bool? : Json → Option Bool
  | .bool value => some value
  | _ => none

/-- A text. -/
def text? : Json → Option Text
  | .string body => decodeText? body
  | _ => none

/-- A count: digits alone, below 2^64. -/
def count? : Json → Option Nat
  | .number spelling =>
    if spelling.all Char.isDigit then
      match readDigits 0 spelling with
      | .ok n => some n
      | .error _ => none
    else none
  | _ => none

/-- A list of texts. -/
def texts? : Json → Option (List Text)
  | .array items => items.mapM text?
  | _ => none

/-- A text that may be missing. -/
def textOrNull? : Json → Option (Option Text)
  | .null => some none
  | value => (text? value).map some

/-- The value of a list of texts. -/
def ofTexts (texts : List Text) : Json :=
  .array (texts.map ofText)

end Json

/-- Reads a color from its text. -/
def Color.ofJson? (value : Json) : Option Color := do
  Color.parse? (← value.text?)

/-- A color by its text. -/
def Color.toJson (color : Color) : Json :=
  .ofText color.hex

/-- Reads a unit: a word for tabs, or an object with the one member for spaces. -/
def IndentUnit.ofJson? : Json → Option IndentUnit
  | .string body => do
    let name ← Json.decodeText? body
    if name = "Tabs".toList then some .tab else none
  | .object [(key, value)] => do
    let name ← Json.decodeText? key
    if name = "Tabs".toList then
      match value with
      | .null => some .tab
      | _ => none
    else if name = "Spaces".toList then value.count?.map .spaces
    else none
  | _ => none

/-- A unit by its word, spaces with their number. -/
def IndentUnit.toJson : IndentUnit → Json
  | .tab => .ofText "Tabs".toList
  | .spaces width => .record [("Spaces", .ofNat width)]

/-! ## Parts -/

/-- The names of the fields for editing, in order. -/
def EditorSettings.fieldNames : List Text :=
  ["indent_style", "detect_indent", "ensure_trailing_newline",
    "rehighlight_full_replacement"].map String.toList

/-- Reads the settings for editing. -/
def EditorSettings.ofJson? (value : Json) : Option EditorSettings := do
  match ← value.fields? fieldNames with
  | [unit, detect, keep, replacement] =>
    return {
      indentUnit := ← fieldOr standard.indentUnit IndentUnit.ofJson? unit
      detectIndent := ← fieldOr standard.detectIndent Json.bool? detect
      keepFinalNewline := ← fieldOr standard.keepFinalNewline Json.bool? keep
      highlightReplacement := ← fieldOr standard.highlightReplacement Json.bool? replacement }
  | _ => none

/-- The settings for editing as a record. -/
def EditorSettings.toJson (settings : EditorSettings) : Json :=
  .record [
    ("indent_style", settings.indentUnit.toJson),
    ("detect_indent", .bool settings.detectIndent),
    ("ensure_trailing_newline", .bool settings.keepFinalNewline),
    ("rehighlight_full_replacement", .bool settings.highlightReplacement)]

/-- The names of the fields for running, in order. -/
def RunSettings.fieldNames : List Text :=
  ["interpreter", "script_file_name", "script_dir", "max_output_chars"].map String.toList

/-- Reads the settings for running. -/
def RunSettings.ofJson? (value : Json) : Option RunSettings := do
  match ← value.fields? fieldNames with
  | [interpreter, fileName, directory, limit] =>
    return {
      interpreter := ← fieldOr standard.interpreter Json.text? interpreter
      scriptFileName := ← fieldOr standard.scriptFileName Json.text? fileName
      scriptDirectory := ← fieldOr standard.scriptDirectory Json.textOrNull? directory
      maxOutputChars := ← fieldOr standard.maxOutputChars Json.count? limit }
  | _ => none

/-- The settings for running as a record. -/
def RunSettings.toJson (settings : RunSettings) : Json :=
  .record [
    ("interpreter", .ofText settings.interpreter),
    ("script_file_name", .ofText settings.scriptFileName),
    ("script_dir", (settings.scriptDirectory.map Json.ofText).getD .null),
    ("max_output_chars", .ofNat settings.maxOutputChars)]

/-- The names of the colors of the text under edit, in order. -/
def TokenColors.fieldNames : List Text :=
  ["text", "comment", "string", "character", "number", "keyword", "type_name"].map String.toList

/-- Reads the colors of the text under edit. -/
def TokenColors.ofJson? (value : Json) : Option TokenColors := do
  match ← value.fields? fieldNames with
  | [text, comment, string, character, number, keyword, typeName] =>
    return {
      text := ← fieldOr standard.text Color.ofJson? text
      comment := ← fieldOr standard.comment Color.ofJson? comment
      string := ← fieldOr standard.string Color.ofJson? string
      character := ← fieldOr standard.character Color.ofJson? character
      number := ← fieldOr standard.number Color.ofJson? number
      keyword := ← fieldOr standard.keyword Color.ofJson? keyword
      typeName := ← fieldOr standard.typeName Color.ofJson? typeName }
  | _ => none

/-- The colors of the text under edit as a record. -/
def TokenColors.toJson (colors : TokenColors) : Json :=
  .record [
    ("text", colors.text.toJson), ("comment", colors.comment.toJson),
    ("string", colors.string.toJson), ("character", colors.character.toJson),
    ("number", colors.number.toJson), ("keyword", colors.keyword.toJson),
    ("type_name", colors.typeName.toJson)]

/-- The names of the colors of the output, in order. -/
def OutputColors.fieldNames : List Text :=
  ["text", "warning", "error", "exit_success", "exit_failure"].map String.toList

/-- Reads the colors of the output. -/
def OutputColors.ofJson? (value : Json) : Option OutputColors := do
  match ← value.fields? fieldNames with
  | [text, warning, error, success, failure] =>
    return {
      text := ← fieldOr standard.text Color.ofJson? text
      warning := ← fieldOr standard.warning Color.ofJson? warning
      error := ← fieldOr standard.error Color.ofJson? error
      exitSuccess := ← fieldOr standard.exitSuccess Color.ofJson? success
      exitFailure := ← fieldOr standard.exitFailure Color.ofJson? failure }
  | _ => none

/-- The colors of the output as a record. -/
def OutputColors.toJson (colors : OutputColors) : Json :=
  .record [
    ("text", colors.text.toJson), ("warning", colors.warning.toJson),
    ("error", colors.error.toJson), ("exit_success", colors.exitSuccess.toJson),
    ("exit_failure", colors.exitFailure.toJson)]

/-- The names of the two sets of colors. -/
def Theme.fieldNames : List Text :=
  ["syntax", "output"].map String.toList

/-- Reads all colors. -/
def Theme.ofJson? (value : Json) : Option Theme := do
  match ← value.fields? fieldNames with
  | [tokens, output] =>
    return {
      tokens := ← fieldOr standard.tokens TokenColors.ofJson? tokens
      output := ← fieldOr standard.output OutputColors.ofJson? output }
  | _ => none

/-- All colors as a record. -/
def Theme.toJson (theme : Theme) : Json :=
  .record [("syntax", theme.tokens.toJson), ("output", theme.output.toJson)]

/-! ## The whole -/

/-- The names of the parts, in order. -/
def Settings.fieldNames : List Text :=
  ["editor", "runner", "theme", "keywords"].map String.toList

/-- Reads settings. -/
def Settings.ofJson? (value : Json) : Option Settings := do
  match ← value.fields? fieldNames with
  | [editor, run, theme, keywords] =>
    return {
      editor := ← fieldOr standard.editor EditorSettings.ofJson? editor
      run := ← fieldOr standard.run RunSettings.ofJson? run
      theme := ← fieldOr standard.theme Theme.ofJson? theme
      keywords := ← fieldOr standard.keywords Json.texts? keywords }
  | _ => none

/-- Settings as a record. -/
def Settings.toJson (settings : Settings) : Json :=
  .record [
    ("editor", settings.editor.toJson), ("runner", settings.run.toJson),
    ("theme", settings.theme.toJson), ("keywords", .ofTexts settings.keywords)]

/-- The settings that a file's text stands for. -/
def Settings.parse? (text : Text) : Option Settings := do
  Settings.ofJson? (← Json.parse? text)

/-- The text of a settings file. -/
def Settings.print (settings : Settings) : Text :=
  settings.toJson.pretty

end ScratchEditor

import ScratchEditor.Proofs.Settings.Colors
import ScratchEditor.Proofs.Settings.Records
import ScratchEditor.Settings.Format

/-!
# Settings are read back

Every part of the settings is written as a record with all of its fields, so no default is
taken when it is read, and a field is read back if its value is.  Only counts are limited: a
width or a limit of 2^64 or more would be written and then refused.

Main definitions:

- `Settings.InRange`: settings whose counts are below 2^64.

Main results:

- `Settings.written_toJson` and `Settings.ofJson?_toJson`: settings are read from their value.
- `Settings.parse?_print`: settings are read from their text.
-/

namespace ScratchEditor

/-! ## Single values -/

namespace Json

@[simp]
theorem bool?_bool (value : Bool) : bool? (.bool value) = some value :=
  rfl

@[simp]
theorem text?_ofText (text : Text) : text? (ofText text) = some text :=
  decodeText?_encodeText text

/-- A count is read back. -/
theorem count?_ofNat {n : Nat} (h : n < countLimit) : count? (ofNat n) = some n := by
  have hdigits : (decimal n).all Char.isDigit = true :=
    List.all_eq_true.mpr (isDigit_of_mem_decimal n)
  simp [count?, ofNat, hdigits, readDigits_decimal h]

/-- A list of texts is read back. -/
@[simp]
theorem texts?_ofTexts (texts : List Text) : texts? (ofTexts texts) = some texts := by
  have hmap : ∀ texts : List Text, (texts.map ofText).mapM text? = some texts := by
    intro texts
    induction texts with
    | nil => rfl
    | cons text texts ih => simp [ih]
  exact hmap texts

/-- A text that may be missing is read back. -/
@[simp]
theorem textOrNull?_getD (text : Option Text) :
    textOrNull? ((text.map ofText).getD .null) = some text := by
  cases text with
  | none => rfl
  | some text => exact congrArg (Option.map some) (text?_ofText text)

theorem Written.ofTexts (texts : List Text) : Written (ofTexts texts) := by
  apply Written.array
  intro item hitem
  obtain ⟨text, -, rfl⟩ := List.mem_map.mp hitem
  exact Written.ofText text

theorem Written.textOrNull (text : Option Text) : Written ((text.map Json.ofText).getD .null) := by
  cases text with
  | none => exact Written.null
  | some text => exact Written.ofText text

end Json

@[simp]
theorem Color.ofJson?_toJson (color : Color) : Color.ofJson? color.toJson = some color := by
  simp [Color.ofJson?, Color.toJson, Color.parse?_hex]

theorem Color.written_toJson (color : Color) : color.toJson.Written :=
  Json.Written.ofText color.hex

/-- A width that a count can be. -/
def IndentUnit.InRange : IndentUnit → Prop
  | .tab => True
  | .spaces width => width < countLimit

instance : DecidablePred IndentUnit.InRange
  | .tab => isTrue trivial
  | .spaces width => inferInstanceAs (Decidable (width < countLimit))

theorem IndentUnit.ofJson?_toJson {unit : IndentUnit} (h : unit.InRange) :
    IndentUnit.ofJson? unit.toJson = some unit := by
  cases unit with
  | tab =>
    rw [IndentUnit.toJson, Json.ofText, IndentUnit.ofJson?, Json.decodeText?_encodeText]
    rfl
  | spaces width =>
    have hname : "Spaces".toList ≠ "Tabs".toList := by decide
    rw [IndentUnit.toJson, Json.record, List.map_singleton, IndentUnit.ofJson?,
      Json.decodeText?_encodeText]
    · simp only [Option.bind_eq_bind, Option.bind_some, if_neg hname, if_true, Json.count?_ofNat h]
      rfl
    · exact Json.noConfusion

theorem IndentUnit.written_toJson (unit : IndentUnit) : unit.toJson.Written := by
  cases unit with
  | tab => exact Json.Written.ofText _
  | spaces width =>
    apply Json.written_record_iff.mpr
    simpa using Json.Written.ofNat width

/-! ## Parts -/

theorem EditorSettings.ofJson?_toJson {settings : EditorSettings}
    (h : settings.indentUnit.InRange) :
    EditorSettings.ofJson? settings.toJson = some settings := by
  have hfields : settings.toJson.fields? EditorSettings.fieldNames =
      some [some settings.indentUnit.toJson, some (.bool settings.detectIndent),
        some (.bool settings.keepFinalNewline), some (.bool settings.highlightReplacement)] :=
    Json.fields?_record rfl (by decide)
  simp [EditorSettings.ofJson?, hfields, IndentUnit.ofJson?_toJson h]

theorem EditorSettings.written_toJson (settings : EditorSettings) : settings.toJson.Written := by
  apply Json.written_record_iff.mpr
  simp [IndentUnit.written_toJson, Json.Written.bool]

theorem RunSettings.ofJson?_toJson {settings : RunSettings}
    (h : settings.maxOutputChars < countLimit) :
    RunSettings.ofJson? settings.toJson = some settings := by
  have hfields : settings.toJson.fields? RunSettings.fieldNames =
      some [some (.ofText settings.interpreter), some (.ofText settings.scriptFileName),
        some ((settings.scriptDirectory.map Json.ofText).getD .null),
        some (.ofNat settings.maxOutputChars)] :=
    Json.fields?_record rfl (by decide)
  simp [RunSettings.ofJson?, hfields, Json.count?_ofNat h]

theorem RunSettings.written_toJson (settings : RunSettings) : settings.toJson.Written := by
  apply Json.written_record_iff.mpr
  simp [Json.Written.ofText, Json.Written.textOrNull, Json.Written.ofNat]

@[simp]
theorem TokenColors.ofJson?_toJson (colors : TokenColors) :
    TokenColors.ofJson? colors.toJson = some colors := by
  have hfields : colors.toJson.fields? TokenColors.fieldNames =
      some [some colors.text.toJson, some colors.comment.toJson, some colors.string.toJson,
        some colors.character.toJson, some colors.number.toJson, some colors.keyword.toJson,
        some colors.typeName.toJson] :=
    Json.fields?_record rfl (by decide)
  simp [TokenColors.ofJson?, hfields]

theorem TokenColors.written_toJson (colors : TokenColors) : colors.toJson.Written := by
  apply Json.written_record_iff.mpr
  simp [Color.written_toJson]

@[simp]
theorem OutputColors.ofJson?_toJson (colors : OutputColors) :
    OutputColors.ofJson? colors.toJson = some colors := by
  have hfields : colors.toJson.fields? OutputColors.fieldNames =
      some [some colors.text.toJson, some colors.warning.toJson, some colors.error.toJson,
        some colors.exitSuccess.toJson, some colors.exitFailure.toJson] :=
    Json.fields?_record rfl (by decide)
  simp [OutputColors.ofJson?, hfields]

theorem OutputColors.written_toJson (colors : OutputColors) : colors.toJson.Written := by
  apply Json.written_record_iff.mpr
  simp [Color.written_toJson]

@[simp]
theorem Theme.ofJson?_toJson (theme : Theme) : Theme.ofJson? theme.toJson = some theme := by
  have hfields : theme.toJson.fields? Theme.fieldNames =
      some [some theme.tokens.toJson, some theme.output.toJson] :=
    Json.fields?_record rfl (by decide)
  simp [Theme.ofJson?, hfields]

theorem Theme.written_toJson (theme : Theme) : theme.toJson.Written := by
  apply Json.written_record_iff.mpr
  simp [TokenColors.written_toJson, OutputColors.written_toJson]

/-! ## The whole -/

namespace Settings

/-- Settings whose counts are below 2^64. -/
structure InRange (settings : Settings) : Prop where
  unit : settings.editor.indentUnit.InRange
  limit : settings.run.maxOutputChars < countLimit

/-- Settings are read from their value. -/
theorem ofJson?_toJson {settings : Settings} (h : settings.InRange) :
    Settings.ofJson? settings.toJson = some settings := by
  have hfields : settings.toJson.fields? fieldNames =
      some [some settings.editor.toJson, some settings.run.toJson, some settings.theme.toJson,
        some (.ofTexts settings.keywords)] :=
    Json.fields?_record rfl (by decide)
  simp [Settings.ofJson?, hfields, EditorSettings.ofJson?_toJson h.unit,
    RunSettings.ofJson?_toJson h.limit]

theorem written_toJson (settings : Settings) : settings.toJson.Written := by
  apply Json.written_record_iff.mpr
  simp [EditorSettings.written_toJson, RunSettings.written_toJson, Theme.written_toJson,
    Json.Written.ofTexts]

/-- Settings are read from their text. -/
theorem parse?_print {settings : Settings} (h : settings.InRange) :
    Settings.parse? settings.print = some settings := by
  rw [Settings.parse?, Settings.print, Json.parse?_pretty settings.written_toJson,
    Option.bind_eq_bind, Option.bind_some, ofJson?_toJson h]

end Settings

end ScratchEditor

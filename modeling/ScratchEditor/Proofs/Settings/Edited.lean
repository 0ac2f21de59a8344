import ScratchEditor.Proofs.Settings.RoundTrip

/-!
# Settings files that were edited

A person who edits a file of settings may delete fields or whole sections, put fields in another
order and add fields of their own.  What is deleted takes the value of the defaults, what is kept
is read as it was written, and what is added is passed over.  Every section has defaults of its
own, which have to be those of the whole, since a section may be deleted as a whole or field by
field.

Main definitions:

- `Json.Shape` and `Settings.shape`: which of the values in a document are records.
- `Json.Edited`: a document made from another one by such edits.
- `Settings.fallBack`: settings where the deleted fields have other values.

Main results:

- `Settings.ofJson?_edited`: the settings of an edited value.
- `Settings.parse?_edited`: the settings of an edited file.
-/

namespace ScratchEditor

/-! ## Edited documents -/

/-- Which fields were deleted, by their paths. -/
abbrev Deleted := List String → Bool

/-- Whether a field of the whole was deleted. -/
def Deleted.field (deleted : Deleted) (name : String) : Bool :=
  deleted [name]

/-- What was deleted within a field. -/
def Deleted.within (deleted : Deleted) (name : String) : Deleted :=
  fun path => deleted (name :: path)

namespace Json

/-- Which of the values in a document are records. -/
inductive Shape
  /-- A value that is taken as a whole. -/
  | value
  /-- A record, with the shape of each of its fields. -/
  | record (field : String → Shape)

/--
A document made from another one: the fields at some paths were deleted, the others were put in
some order, and members that name no field were added to the records.
-/
def Edited : Shape → Deleted → Json → Json → Prop
  | .value, _, old, new => new = old
  | .record field, deleted, old, new =>
    ∃ fields members, old = record fields ∧ new = .object members ∧
      Revision deleted.field (fun name => Edited (field name) (deleted.within name))
        fields members

/-- A record is known by its fields. -/
theorem record_injective : Function.Injective record := by
  intro fields fields' h
  apply List.map_injective_iff.mpr ?_ (Json.object.inj h)
  rintro ⟨name, value⟩ ⟨name', value'⟩ heq
  obtain ⟨hname, rfl⟩ := Prod.mk.inj heq
  have hdecode := congrArg decodeText? hname
  rw [decodeText?_encodeText, decodeText?_encodeText] at hdecode
  have hsame : name = name' := String.toList_inj.mp (Option.some.inj hdecode)
  rw [hsame]

theorem edited_record_iff {field : String → Shape} {deleted : Deleted}
    {fields : List (String × Json)} {new : Json} :
    Edited (.record field) deleted (record fields) new ↔ ∃ members, new = .object members ∧
      Revision deleted.field (fun name => Edited (field name) (deleted.within name))
        fields members := by
  constructor
  · rintro ⟨fields', members, hfields, hnew, hrevision⟩
    obtain rfl := record_injective hfields
    exact ⟨members, hnew, hrevision⟩
  · rintro ⟨members, hnew, hrevision⟩
    exact ⟨fields, members, rfl, hnew, hrevision⟩

/-- An edited document is still one. -/
theorem Edited.written {shape : Shape} {deleted : Deleted} {old new : Json}
    (h : Edited shape deleted old new) (hold : old.Written) : new.Written := by
  induction shape generalizing deleted old new with
  | value =>
    obtain rfl : new = old := h
    exact hold
  | record field ih =>
    obtain ⟨fields, members, rfl, rfl, hrevision⟩ := h
    have hfields := written_record_iff.mp hold
    apply Written.object
    · intro member hmember
      obtain ⟨_, -, hspells, -⟩ | ⟨-, _, hspells, -⟩ := hrevision.kept_or_added hmember
      · exact hspells.isBody
      · exact hspells.isBody
    · intro member hmember
      obtain ⟨_, hfield, -, hedited⟩ | ⟨hwritten, -⟩ := hrevision.kept_or_added hmember
      · exact ih _ hedited (hfields _ hfield)
      · exact hwritten

/-- A field that was deleted has its default, and one that was kept is read from its value. -/
theorem Slot.fieldOr {α : Type} {deleted : Bool} {changed : Json → Prop} {slot : Option Json}
    (h : Slot deleted changed slot) {read : Json → Option α} {own : α}
    (hread : ∀ value, changed value → read value = some own) (default_ : α) :
    ScratchEditor.fieldOr default_ read slot = some (if deleted then default_ else own) := by
  cases h with
  | deleted h =>
    rw [h]
    rfl
  | kept h hvalue =>
    rw [h]
    exact hread _ hvalue

/-- A value that is not a record was deleted, or is still the same. -/
theorem Slot.fieldOr_value {α : Type} {deleted : Bool} {within : Deleted} {old : Json}
    {slot : Option Json} (h : Slot deleted (Edited .value within old) slot)
    {read : Json → Option α} {own : α} (hread : read old = some own) (default_ : α) :
    ScratchEditor.fieldOr default_ read slot = some (if deleted then default_ else own) := by
  refine h.fieldOr ?_ default_
  intro value hvalue
  obtain rfl : value = old := hvalue
  exact hread

end Json

/-! ## Other values for what was deleted -/

/-- Settings for editing where the deleted fields have other values. -/
def EditorSettings.fallBack (own : EditorSettings) (deleted : Deleted) (other : EditorSettings) :
    EditorSettings where
  indentUnit := if deleted.field "indent_style" then other.indentUnit else own.indentUnit
  detectIndent := if deleted.field "detect_indent" then other.detectIndent else own.detectIndent
  keepFinalNewline :=
    if deleted.field "ensure_trailing_newline" then other.keepFinalNewline
    else own.keepFinalNewline
  highlightReplacement :=
    if deleted.field "rehighlight_full_replacement" then other.highlightReplacement
    else own.highlightReplacement

/-- Settings for running where the deleted fields have other values. -/
def RunSettings.fallBack (own : RunSettings) (deleted : Deleted) (other : RunSettings) :
    RunSettings where
  interpreter := if deleted.field "interpreter" then other.interpreter else own.interpreter
  scriptFileName :=
    if deleted.field "script_file_name" then other.scriptFileName else own.scriptFileName
  scriptDirectory :=
    if deleted.field "script_dir" then other.scriptDirectory else own.scriptDirectory
  maxOutputChars :=
    if deleted.field "max_output_chars" then other.maxOutputChars else own.maxOutputChars

/-- Colors of the text under edit where the deleted ones are others. -/
def TokenColors.fallBack (own : TokenColors) (deleted : Deleted) (other : TokenColors) :
    TokenColors where
  text := if deleted.field "text" then other.text else own.text
  comment := if deleted.field "comment" then other.comment else own.comment
  string := if deleted.field "string" then other.string else own.string
  character := if deleted.field "character" then other.character else own.character
  number := if deleted.field "number" then other.number else own.number
  keyword := if deleted.field "keyword" then other.keyword else own.keyword
  typeName := if deleted.field "type_name" then other.typeName else own.typeName

/-- Colors of the output where the deleted ones are others. -/
def OutputColors.fallBack (own : OutputColors) (deleted : Deleted) (other : OutputColors) :
    OutputColors where
  text := if deleted.field "text" then other.text else own.text
  warning := if deleted.field "warning" then other.warning else own.warning
  error := if deleted.field "error" then other.error else own.error
  exitSuccess := if deleted.field "exit_success" then other.exitSuccess else own.exitSuccess
  exitFailure := if deleted.field "exit_failure" then other.exitFailure else own.exitFailure

/-- All colors where the deleted ones are others. -/
def Theme.fallBack (own : Theme) (deleted : Deleted) (other : Theme) : Theme where
  tokens :=
    if deleted.field "syntax" then other.tokens
    else own.tokens.fallBack (deleted.within "syntax") other.tokens
  output :=
    if deleted.field "output" then other.output
    else own.output.fallBack (deleted.within "output") other.output

/-- Settings where the deleted fields have other values. -/
def Settings.fallBack (own : Settings) (deleted : Deleted) (other : Settings) : Settings where
  editor :=
    if deleted.field "editor" then other.editor
    else own.editor.fallBack (deleted.within "editor") other.editor
  run :=
    if deleted.field "runner" then other.run
    else own.run.fallBack (deleted.within "runner") other.run
  theme :=
    if deleted.field "theme" then other.theme
    else own.theme.fallBack (deleted.within "theme") other.theme
  keywords := if deleted.field "keywords" then other.keywords else own.keywords

/-! ## Reading the parts -/

section

variable {deleted : Deleted} {value : Json}

/-- Kept settings for editing are read, and the others are the defaults. -/
theorem EditorSettings.ofJson?_edited {settings : EditorSettings}
    (h : settings.indentUnit.InRange)
    (hedited : Json.Edited (.record fun _ => .value) deleted settings.toJson value) :
    EditorSettings.ofJson? value = some (settings.fallBack deleted .standard) := by
  obtain ⟨members, rfl, hrevision⟩ := Json.edited_record_iff.mp hedited
  obtain ⟨slot, hfields, hslots⟩ :=
    hrevision.slots EditorSettings.fieldNames rfl (by decide)
  simp only [List.forall_mem_cons] at hslots
  obtain ⟨hunit, hdetect, hkeep, hreplacement, -⟩ := hslots
  simp [EditorSettings.ofJson?, EditorSettings.fallBack, hfields,
    hunit.fieldOr_value (IndentUnit.ofJson?_toJson h),
    hdetect.fieldOr_value (Json.bool?_bool _), hkeep.fieldOr_value (Json.bool?_bool _),
    hreplacement.fieldOr_value (Json.bool?_bool _)]

/-- Kept settings for running are read, and the others are the defaults. -/
theorem RunSettings.ofJson?_edited {settings : RunSettings}
    (h : settings.maxOutputChars < countLimit)
    (hedited : Json.Edited (.record fun _ => .value) deleted settings.toJson value) :
    RunSettings.ofJson? value = some (settings.fallBack deleted .standard) := by
  obtain ⟨members, rfl, hrevision⟩ := Json.edited_record_iff.mp hedited
  obtain ⟨slot, hfields, hslots⟩ :=
    hrevision.slots RunSettings.fieldNames rfl (by decide)
  simp only [List.forall_mem_cons] at hslots
  obtain ⟨hinterpreter, hname, hdirectory, hlimit, -⟩ := hslots
  simp [RunSettings.ofJson?, RunSettings.fallBack, hfields,
    hinterpreter.fieldOr_value (Json.text?_ofText _), hname.fieldOr_value (Json.text?_ofText _),
    hdirectory.fieldOr_value (Json.textOrNull?_getD _), hlimit.fieldOr_value (Json.count?_ofNat h)]

/-- Kept colors of the text under edit are read, and the others are the defaults. -/
theorem TokenColors.ofJson?_edited {colors : TokenColors}
    (hedited : Json.Edited (.record fun _ => .value) deleted colors.toJson value) :
    TokenColors.ofJson? value = some (colors.fallBack deleted .standard) := by
  obtain ⟨members, rfl, hrevision⟩ := Json.edited_record_iff.mp hedited
  obtain ⟨slot, hfields, hslots⟩ :=
    hrevision.slots TokenColors.fieldNames rfl (by decide)
  simp only [List.forall_mem_cons] at hslots
  obtain ⟨htext, hcomment, hstring, hcharacter, hnumber, hkeyword, htype, -⟩ := hslots
  have hread := Color.ofJson?_toJson
  simp [TokenColors.ofJson?, TokenColors.fallBack, hfields, htext.fieldOr_value (hread _),
    hcomment.fieldOr_value (hread _), hstring.fieldOr_value (hread _),
    hcharacter.fieldOr_value (hread _), hnumber.fieldOr_value (hread _),
    hkeyword.fieldOr_value (hread _), htype.fieldOr_value (hread _)]

/-- Kept colors of the output are read, and the others are the defaults. -/
theorem OutputColors.ofJson?_edited {colors : OutputColors}
    (hedited : Json.Edited (.record fun _ => .value) deleted colors.toJson value) :
    OutputColors.ofJson? value = some (colors.fallBack deleted .standard) := by
  obtain ⟨members, rfl, hrevision⟩ := Json.edited_record_iff.mp hedited
  obtain ⟨slot, hfields, hslots⟩ :=
    hrevision.slots OutputColors.fieldNames rfl (by decide)
  simp only [List.forall_mem_cons] at hslots
  obtain ⟨htext, hwarning, herror, hsuccess, hfailure, -⟩ := hslots
  have hread := Color.ofJson?_toJson
  simp [OutputColors.ofJson?, OutputColors.fallBack, hfields, htext.fieldOr_value (hread _),
    hwarning.fieldOr_value (hread _), herror.fieldOr_value (hread _),
    hsuccess.fieldOr_value (hread _), hfailure.fieldOr_value (hread _)]

/-- Of kept sets of colors the kept colors are read, and the others are the defaults. -/
theorem Theme.ofJson?_edited {theme : Theme}
    (hedited : Json.Edited (.record fun _ => .record fun _ => .value) deleted theme.toJson value) :
    Theme.ofJson? value = some (theme.fallBack deleted .standard) := by
  obtain ⟨members, rfl, hrevision⟩ := Json.edited_record_iff.mp hedited
  obtain ⟨slot, hfields, hslots⟩ := hrevision.slots Theme.fieldNames rfl (by decide)
  simp only [List.forall_mem_cons] at hslots
  obtain ⟨htokens, houtput, -⟩ := hslots
  have hstandard : standard.tokens = .standard ∧ standard.output = .standard := ⟨rfl, rfl⟩
  simp [Theme.ofJson?, Theme.fallBack, hfields, hstandard,
    htokens.fieldOr fun _ => TokenColors.ofJson?_edited,
    houtput.fieldOr fun _ => OutputColors.ofJson?_edited]

end

/-! ## Reading the whole -/

namespace Settings

/-- The shape of a settings file: colors are in records within a record, keywords in none. -/
def shape : Json.Shape :=
  .record fun name =>
    if name = "keywords" then .value
    else if name = "theme" then .record fun _ => .record fun _ => .value
    else .record fun _ => .value

variable {settings : Settings} {deleted : Deleted}

/-- What was kept in an edited value is read, and what was deleted has its default. -/
theorem ofJson?_edited (h : settings.InRange) {value : Json}
    (hedited : Json.Edited shape deleted settings.toJson value) :
    Settings.ofJson? value = some (settings.fallBack deleted standard) := by
  obtain ⟨members, rfl, hrevision⟩ := Json.edited_record_iff.mp hedited
  obtain ⟨slot, hfields, hslots⟩ := hrevision.slots fieldNames rfl (by decide)
  simp only [List.forall_mem_cons, String.reduceEq, if_false, if_true] at hslots
  obtain ⟨heditor, hrun, htheme, hkeywords, -⟩ := hslots
  -- the defaults of every section are those of the whole
  have hstandard : standard.editor = .standard ∧ standard.run = .standard ∧
      standard.theme = .standard := ⟨rfl, rfl, rfl⟩
  simp [Settings.ofJson?, Settings.fallBack, hfields, hstandard,
    heditor.fieldOr fun _ => EditorSettings.ofJson?_edited h.unit,
    hrun.fieldOr fun _ => RunSettings.ofJson?_edited h.limit,
    htheme.fieldOr fun _ => Theme.ofJson?_edited,
    hkeywords.fieldOr_value (Json.texts?_ofTexts _)]

/--
A settings file in which fields were deleted at any level, in which the others were put in another
order, and to which members with other names were added, is read in whatever layout: what was
kept has its own value, and what was deleted has its default.
-/
theorem parse?_edited (h : settings.InRange) {document : Json}
    (hedited : Json.Edited shape deleted settings.toJson document) :
    Settings.parse? document.pretty = some (settings.fallBack deleted standard) ∧
      ∀ text, Json.parse? text = some document →
        Settings.parse? text = some (settings.fallBack deleted standard) := by
  have hparse : ∀ text, Json.parse? text = some document →
      Settings.parse? text = some (settings.fallBack deleted standard) := by
    intro text htext
    rw [Settings.parse?, htext, Option.bind_eq_bind, Option.bind_some, ofJson?_edited h hedited]
  exact ⟨hparse _ (Json.parse?_pretty (hedited.written settings.written_toJson)), hparse⟩

open Json in
/-- Fields are deleted at every level, and the others are read among those that were added. -/
theorem parse?_edited_at_every_level :
    Settings.parse? (Json.object [
      (encodeText "plugins".toList, .array [.number "-1.5e3".toList, .null]),
      (encodeText "plugins".toList, .object []),
      (encodeText "keywords".toList, .ofTexts ["let".toList]),
      (encodeText "theme".toList, .object [(encodeText "syntax".toList, .object [
        (encodeText "number".toList, (Color.rgb 1 2 3).toJson)])])]).pretty =
    some { standard with
      theme := { Theme.standard with tokens := { TokenColors.standard with number := .rgb 1 2 3 } }
      keywords := ["let".toList] } := by
  let deleted : Deleted := fun path => path ∈ [["editor"], ["runner"], ["theme", "output"],
    ["theme", "syntax", "text"], ["theme", "syntax", "comment"], ["theme", "syntax", "string"],
    ["theme", "syntax", "character"], ["theme", "syntax", "keyword"],
    ["theme", "syntax", "type_name"]]
  let settings : Settings := {
    editor := ⟨.spaces 3, true, false, true⟩
    run := ⟨"sh".toList, "a.sh".toList, none, 7⟩
    theme := ⟨{ TokenColors.standard with text := .rgb 1 1 1, number := .rgb 1 2 3 }, .standard⟩
    keywords := ["let".toList] }
  have htokens : Edited (.record fun _ => .value) ((deleted.within "theme").within "syntax")
      settings.theme.tokens.toJson
      (.object [(encodeText "number".toList, (Color.rgb 1 2 3).toJson)]) :=
    edited_record_iff.mpr ⟨_, rfl, .deletion _ fun _ _ => rfl⟩
  have htheme : Edited (.record fun _ => .record fun _ => .value) (deleted.within "theme")
      settings.theme.toJson (.object [(encodeText "syntax".toList, .object [
        (encodeText "number".toList, (Color.rgb 1 2 3).toJson)])]) :=
    edited_record_iff.mpr ⟨_, rfl, .of
      (.cons ⟨spells_encodeText _, htokens⟩ .nil) (List.forall_mem_nil _) (.refl _)⟩
  have hkeywords : Edited .value (deleted.within "keywords") (.ofTexts settings.keywords)
      (.ofTexts ["let".toList]) := rfl
  have hadded : ∀ member ∈ [
      (encodeText "plugins".toList, Json.array [.number "-1.5e3".toList, .null]),
      (encodeText "plugins".toList, .object [])], member.2.Written ∧
        ∃ name, Spells member.1 name ∧ ∀ field ∈ [("editor", settings.editor.toJson),
          ("runner", settings.run.toJson), ("theme", settings.theme.toJson),
          ("keywords", .ofTexts settings.keywords)], field.1.toList ≠ name := by
    have hnumber : IsNumber "-1.5e3".toList := by rfl
    refine List.forall_mem_cons.mpr ⟨⟨.array ?_, _, spells_encodeText _, by simp⟩,
      List.forall_mem_cons.mpr ⟨⟨.object ?_ ?_, _, spells_encodeText _, by simp⟩, ?_⟩⟩
    · exact List.forall_mem_cons.mpr ⟨.number hnumber,
        List.forall_mem_cons.mpr ⟨.null, List.forall_mem_nil _⟩⟩
    all_goals exact List.forall_mem_nil _
  refine (@parse?_edited settings deleted ⟨by decide, by decide⟩ _
    (edited_record_iff.mpr ⟨_, rfl, .of
      (.cons ⟨spells_encodeText _, by simpa using htheme⟩
        (.cons ⟨spells_encodeText _, by simpa using hkeywords⟩ .nil))
      hadded (List.perm_append_comm.trans ((List.reverse_perm _).append_right _))⟩)).1.trans ?_
  decide +kernel

end Settings

end ScratchEditor

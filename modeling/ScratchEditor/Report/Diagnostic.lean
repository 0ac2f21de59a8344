import ScratchEditor.Pane.Chunk
import ScratchEditor.Text.Encoding

/-!
# Diagnostics of a compiler

A compiler reports `file:row:column: severity: message`.  The message runs over
lines up to a blank line or the end of the report, a line break before the end
not included; a carriage return before a line feed belongs to the break.  A
report whose row or column is no positive count is passed over.

Main definitions:

- `Severity` and `Diagnostic`.
- `Diagnostic.parseAll`: the diagnostics in a report.
- `renderReport`: the report as a chunk with styles and links.
-/

namespace ScratchEditor

/-- How serious a diagnostic is. -/
inductive Severity
  | warning
  | error
deriving DecidableEq

namespace Severity

/-- The word a report uses. -/
def label : Severity → String
  | warning => "warning"
  | error => "error"

/-- The severity a word stands for. -/
def ofLabel? (label : Text) : Option Severity :=
  if label = "warning".toList then some warning
  else if label = "error".toList then some error
  else none

/-- The color a severity is shown in. -/
def color (colors : OutputColors) : Severity → Color
  | warning => colors.warning
  | error => colors.error

/-- A severity is read back from its word. -/
theorem ofLabel?_label (severity : Severity) :
    ofLabel? severity.label.toList = some severity := by
  cases severity <;> decide

end Severity

/-- A diagnostic and where it stands in the report. -/
structure Diagnostic where
  file : Text
  row : Nat
  column : Nat
  severity : Severity
  message : Text
  /-- From the file name to the end of the message. -/
  extent : Extent
  /-- The row and the column. -/
  link : Extent
deriving DecidableEq

namespace Diagnostic

/-- Where the diagnostic points. -/
def target (diagnostic : Diagnostic) : Spot :=
  ⟨diagnostic.row, diagnostic.column⟩

/-- The pattern of a diagnostic. -/
def patternText : Text :=
  "(.*):([0-9]+):([0-9]+): (warning|error): ((?:.|\\n)*?)(?:\\r?\\n\\r?\\n|\\r?\\n?\\z)".toList

/-- The tree of that pattern. -/
def patternNode : Node :=
  match Pattern.parse patternText with
  | .ok pattern => pattern.node
  | .error _ => .never

/-- A positive count. -/
def positive? (text : Text) : Option Nat :=
  match readCount text with
  | .ok n => if n = 0 then none else some n
  | .error _ => none

/--
The diagnostic of a match, and the meter behind it.  The groups stand at byte positions, which
the meter turns into offsets of characters; a match without a diagnostic leaves it in place.
-/
def ofFound? (report : Text) (meter : OffsetMeter) (found : Found) :
    Option (Diagnostic × OffsetMeter) := do
  let file ← found.group? 1
  let rowText ← found.group? 2
  let columnText ← found.group? 3
  let label ← found.group? 4
  let message ← found.group? 5
  let row ← positive? (report.slice rowText)
  let column ← positive? (report.slice columnText)
  let severity ← Severity.ofLabel? (report.slice label)
  let atFile := meter.advance (report.byteOffset file.start)
  let atRow := atFile.advance (report.byteOffset rowText.start)
  let behindColumn := atRow.advance (report.byteOffset columnText.stop)
  let behindMessage := behindColumn.advance (report.byteOffset message.stop)
  return ({
    file := report.slice file
    row := row
    column := column
    severity := severity
    message := report.slice message
    extent := Extent.between atFile.chars behindMessage.chars
    link := Extent.between atRow.chars behindColumn.chars }, behindMessage)

/-- The diagnostics of matches one behind the other. -/
def ofMatches (report : Text) : OffsetMeter → List Found → List Diagnostic
  | _, [] => []
  | meter, found :: rest =>
    match ofFound? report meter found with
    | none => ofMatches report meter rest
    | some (diagnostic, behind) => diagnostic :: ofMatches report behind rest

/-- The diagnostics in a report, in order. -/
def parseAll (report : Text) : List Diagnostic :=
  ofMatches report (OffsetMeter.start report) (patternNode.findAll report)

end Diagnostic

/-- A report as a chunk: every diagnostic in the color of its severity, with a link. -/
def renderReport (report : Text) (colors : OutputColors) : Chunk × List Diagnostic :=
  let diagnostics := Diagnostic.parseAll report
  let plain := Chunk.output report colors
  ({ plain with
      styles := plain.styles ++ diagnostics.map fun diagnostic =>
        ⟨diagnostic.extent, .heavy (diagnostic.severity.color colors)⟩
      links := diagnostics.map fun diagnostic => ⟨diagnostic.link, diagnostic.target⟩ },
    diagnostics)

@[simp]
theorem text_renderReport (report : Text) (colors : OutputColors) :
    (renderReport report colors).1.text = report :=
  rfl

/-- A report is rendered with the diagnostics in it. -/
theorem snd_renderReport (report : Text) (colors : OutputColors) :
    (renderReport report colors).2 = Diagnostic.parseAll report := by
  unfold renderReport
  -- Unfolding further would look for the diagnostics.
  generalize Diagnostic.parseAll report = diagnostics
  rfl

end ScratchEditor

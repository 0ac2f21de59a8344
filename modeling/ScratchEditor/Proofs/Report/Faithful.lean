import ScratchEditor.Proofs.Report.Records

/-!
# Diagnostics are slices of their report

Every diagnostic that is read from a report stands in it as it is written: a file, a row, a
column, the word of a severity and a message, from the beginning of a line to a blank line or
the end.  The report is shown with one style and one link for each of them.

Main definitions:

- `Diagnostic.NoBlankLine`: a message without a blank line.
- `Diagnostic.Faithful`: a diagnostic that stands in a report as it is written.
- `Rendered`: a chunk that shows a report with its diagnostics.

Main results:

- `Diagnostic.faithful_of_mem_parseAll`: the diagnostics of a report stand in it.
- `Diagnostic.pairwise_parseAll`: they stand one behind the other.
- `renderReport_faithful`: both, and what the report is shown as.
-/

namespace ScratchEditor

namespace Diagnostic

/-- A message in which no line break follows another one. -/
def NoBlankLine (message : Text) : Prop :=
  ¬ "\n\n".toList <:+: message ∧ ¬ "\n\r\n".toList <:+: message

/-- Digits of ASCII that stand for a positive count. -/
structure Writes (digits : Text) (n : Nat) : Prop where
  ne_nil : digits ≠ []
  isDigit : ∀ c ∈ digits, c.isDigit = true
  value : Nat.ofDigitChars 10 digits 0 = n
  pos : 1 ≤ n
  lt : n < countLimit

/-- How a diagnostic is written with digits for its row and its column. -/
def written (diagnostic : Diagnostic) (row column : Text) : Text :=
  diagnostic.file ++ ':' :: row ++ ':' :: column ++ ": ".toList ++
    diagnostic.severity.label.toList ++ ": ".toList ++ diagnostic.message

/-- A diagnostic that stands in a report as it is written. -/
structure Faithful (report : Text) (diagnostic : Diagnostic) : Prop where
  /-- Its extent is filled by it, and its link by the row and the column. -/
  written : ∃ row column, Writes row diagnostic.row ∧ Writes column diagnostic.column ∧
    report.slice diagnostic.extent = diagnostic.written row column ∧
    report.slice diagnostic.link = row ++ ':' :: column
  /-- The link stands behind the file and a colon. -/
  link_start : diagnostic.link.start = diagnostic.extent.start + diagnostic.file.length + 1
  link_stop : diagnostic.link.stop ≤ diagnostic.extent.stop
  stop_le : diagnostic.extent.stop ≤ report.length
  /-- It begins where a line does. -/
  line_start : Text.EndsLine (report.take diagnostic.extent.start)
  file_line : '\n' ∉ diagnostic.file
  message_noBlankLine : NoBlankLine diagnostic.message
  /-- A blank line follows it, or at most one line break at the end. -/
  followed : (∃ first second, IsLineBreak first ∧ IsLineBreak second ∧
      first ++ second <+: report.drop diagnostic.extent.stop) ∨
    report.drop diagnostic.extent.stop ∈ lastBreaks

/-! ## Lines -/

theorem entryAt?_eq_none_iff {report : Text} {offset : Nat} :
    entryAt? report offset = none ↔ lastHeading? (report.drop offset) = none := by
  rw [entryAt?, entryOf?, Option.map_eq_none_iff, Option.map_eq_none_iff]

/-- A token is an entry of the report. -/
theorem entryAt?_sound {report : Text} {offset : Nat} {token : Entry × Extent}
    (h : entryAt? report offset = some token) :
    token.1.Sound (report.drop offset) ∧ token.2 = ⟨offset, token.1.whole.length⟩ := by
  obtain ⟨entry, hentry, rfl⟩ := Option.map_eq_some_iff.mp h
  exact ⟨entryOf?_sound hentry, rfl⟩

/-- A token stands where it is found, and takes something. -/
theorem entryAt?_start {report : Text} (offset : Nat) (token : Entry × Extent)
    (h : entryAt? report offset = some token) :
    token.2.start = offset ∧ offset < token.2.stop := by
  obtain ⟨-, hextent⟩ := entryAt?_sound h
  rw [hextent]
  exact ⟨rfl, Nat.lt_add_of_pos_right token.1.length_whole_pos⟩

/-- A scan for entries looks at the beginning of a line, or at a line without a heading. -/
def AtLine (report : Text) (offset : Nat) : Prop :=
  Text.EndsLine (report.take offset) ∨ lastHeading? (report.drop offset) = none

/-- Moving on by a character keeps to the line. -/
theorem AtLine.succ {report : Text} {offset : Nat} (h : lastHeading? (report.drop offset) = none) :
    AtLine report (offset + 1) := by
  cases hdrop : report.drop offset with
  | nil =>
    right
    rw [← List.drop_drop, hdrop]
    rfl
  | cons c rest =>
    rw [hdrop] at h
    have hrest : report.drop (offset + 1) = rest := by
      rw [← List.drop_drop, hdrop]
      rfl
    rcases lastHeading?_tail h with rfl | htail
    · left
      have htake : report.take (offset + 1) = report.take offset ++ ['\n'] := by
        rw [List.take_add, hdrop]
        rfl
      rw [htake, Text.endsLine_iff]
      simp
    · right
      rw [hrest]
      exact htail

/-- Behind an entry there is the beginning of a line or the end of the report. -/
theorem AtLine.behind {report : Text} {offset : Nat} {entry : Entry}
    (h : entry.Sound (report.drop offset)) : AtLine report (offset + entry.whole.length) := by
  obtain ⟨rest, hrest⟩ := h.whole_begins
  rcases h.ending_cases with ⟨first, second, -, hsecond, hending⟩ | ⟨-, hwhole⟩
  · left
    have htake : report.take (offset + entry.whole.length) =
        report.take offset ++ entry.text ++ first ++ second := by
      rw [List.take_add, ← hrest, List.take_left, Entry.whole, hending]
      simp
    have hlast : second.getLast? = some '\n' := by
      rcases hsecond with rfl | rfl <;> rfl
    rw [htake, Text.endsLine_iff, List.getLast?_append, hlast]
    simp
  · right
    rw [← List.drop_drop, ← hwhole, List.drop_length]
    rfl

/-- The entries that a scan finds begin where lines do. -/
theorem lineStart_of_scan {report : Text} {offset : Nat} {tokens : List (Entry × Extent)}
    (h : Scan (entryAt? report) report.length offset tokens) (hline : AtLine report offset) :
    ∀ token ∈ tokens, Text.EndsLine (report.take token.2.start) := by
  induction h with
  | stop => simp
  | skip hlimit hhead hnext ih =>
    exact ih (AtLine.succ (entryAt?_eq_none_iff.mp hhead))
  | @take offset token tokens hlimit hhead hnext ih =>
    obtain ⟨hsound, hextent⟩ := entryAt?_sound hhead
    have hhere : Text.EndsLine (report.take offset) := by
      rcases hline with hends | hnone
      · exact hends
      · rw [entryAt?_eq_none_iff.mpr hnone] at hhead
        cases hhead
    rw [hextent] at ih
    intro other hmem
    rcases List.mem_cons.mp hmem with rfl | hlater
    · rw [hextent]
      exact hhere
    · exact ih (AtLine.behind hsound) other hlater

/-! ## Diagnostics -/

theorem writes_of_positive? {digits : Text} (hne : digits ≠ [])
    (hdigits : ∀ c ∈ digits, c.isDigit = true) {n : Nat} (h : positive? digits = some n) :
    Writes digits n := by
  obtain ⟨hvalue, hpos, hlt⟩ := (positive?_eq_some_iff hne hdigits).mp h
  exact ⟨hne, hdigits, hvalue, hpos, hlt⟩

/-- A message is cut before every blank line. -/
theorem Entry.Sound.noBlankLine {text : Text} {entry : Entry} (h : entry.Sound text) :
    NoBlankLine entry.message :=
  ⟨h.message_noBlank ['\n'] ['\n'] (Or.inl rfl) (Or.inl rfl),
    h.message_noBlank ['\n'] ['\r', '\n'] (Or.inl rfl) (Or.inr rfl)⟩

/-- The diagnostic of an entry at the beginning of a line is faithful. -/
theorem faithful_of_entry {report : Text} {offset : Nat} {entry : Entry} {diagnostic : Diagnostic}
    (hoffset : offset ≤ report.length) (hsound : entry.Sound (report.drop offset))
    (hline : Text.EndsLine (report.take offset))
    (h : entry.diagnostic? offset = some diagnostic) : diagnostic.Faithful report := by
  obtain ⟨row, column, hrow, hcolumn, rfl⟩ := Entry.diagnostic?_eq_some h
  have hwell := hsound.heading_wellFormed
  have hat := Entry.at_of_prefix hsound.whole_begins hoffset
  obtain ⟨rest, hdrop⟩ := hsound.whole_begins
  have hbehind : report.drop (entry.extent offset).stop = entry.ending ++ rest := by
    rw [Entry.extent, Extent.stop, ← List.drop_drop, ← hdrop, Entry.whole, List.append_assoc,
      List.drop_left]
  constructor
  case written =>
    refine ⟨entry.heading.row, entry.heading.column,
      writes_of_positive? hwell.row_ne hwell.row_digits hrow,
      writes_of_positive? hwell.column_ne hwell.column_digits hcolumn, ?_, hat.link⟩
    rw [hat.text]
    simp [Entry.text, Heading.text, Diagnostic.written]
  case link_start => rfl
  case link_stop => exact entry.stop_link_le offset
  case stop_le => exact hat.stop_le
  case line_start => exact hline
  case file_line => exact hsound.file_line
  case message_noBlankLine => exact hsound.noBlankLine
  case followed =>
    rw [hbehind]
    rcases hsound.ending_cases with ⟨first, second, hfirst, hsecond, hending⟩ | ⟨hlast, hwhole⟩
    · exact Or.inl ⟨first, second, hfirst, hsecond, rest, by rw [hending]⟩
    · have hnil : rest = [] := by
        rwa [← hwhole, List.append_right_eq_self] at hdrop
      right
      rw [hnil, List.append_nil]
      exact hlast

/-- The extent of the diagnostic of a token. -/
theorem extent_of_diagnosticOf? {token : Entry × Extent} {diagnostic : Diagnostic}
    (h : diagnosticOf? token = some diagnostic) :
    diagnostic.extent = token.1.extent token.2.start := by
  obtain ⟨row, column, -, -, rfl⟩ := Entry.diagnostic?_eq_some h
  rfl

/-- Every diagnostic of a report stands in it as it is written. -/
theorem faithful_of_mem_parseAll {report : Text} {diagnostic : Diagnostic}
    (h : diagnostic ∈ parseAll report) : diagnostic.Faithful report := by
  obtain ⟨tokens, hscan, hparse⟩ := parseAll_eq report
  rw [hparse, List.mem_filterMap] at h
  obtain ⟨token, hmem, hdiagnostic⟩ := h
  obtain ⟨offset, hoffset, hentry⟩ := hscan.exists_head token hmem
  obtain ⟨hsound, hextent⟩ := entryAt?_sound hentry
  have hline := lineStart_of_scan hscan (Or.inl Text.endsLine_nil) token hmem
  have hstart : token.2.start = offset := by
    rw [hextent]
  rw [hstart] at hline
  rw [diagnosticOf?, hstart] at hdiagnostic
  exact faithful_of_entry hoffset hsound hline hdiagnostic

/-- The diagnostics of a report stand one behind the other. -/
theorem pairwise_parseAll (report : Text) :
    (parseAll report).Pairwise fun a b => a.extent.stop ≤ b.extent.start := by
  obtain ⟨tokens, hscan, hparse⟩ := parseAll_eq report
  have hpairwise := Scan.pairwise entryAt?_start hscan
  rw [hparse, List.pairwise_filterMap]
  refine hpairwise.imp_of_mem ?_
  intro token other hmem _ hle diagnostic hdiagnostic diagnostic' hdiagnostic'
  obtain ⟨offset, -, hentry⟩ := hscan.exists_head token hmem
  obtain ⟨-, hextent⟩ := entryAt?_sound hentry
  rw [extent_of_diagnosticOf? hdiagnostic, extent_of_diagnosticOf? hdiagnostic']
  calc (token.1.extent token.2.start).stop
    _ ≤ token.2.start + token.1.whole.length := by
      simp [Entry.extent, Extent.stop, Entry.length_whole]
    _ = token.2.stop := by rw [hextent, Extent.stop]
    _ ≤ other.2.start := hle

/-- The links of the diagnostics stand one behind the other. -/
theorem pairwise_link_parseAll (report : Text) :
    (parseAll report).Pairwise fun a b => a.link.stop ≤ b.link.start := by
  refine (pairwise_parseAll report).imp_of_mem ?_
  intro a b ha hb hle
  have hfirst := (faithful_of_mem_parseAll ha).link_stop
  have hsecond := (faithful_of_mem_parseAll hb).link_start
  omega

end Diagnostic

/-! ## Showing a report -/

/-- Of extents one behind the other, the one that holds an offset is found. -/
theorem find?_holds_of_pairwise {β : Type} {extent : β → Extent} {items : List β}
    (h : items.Pairwise fun a b => (extent a).stop ≤ (extent b).start) {item : β} {offset : Nat}
    (hmem : item ∈ items) (hholds : (extent item).holds offset = true) :
    (items.find? fun other => (extent other).holds offset) = some item := by
  induction h with
  | nil => cases hmem
  | @cons first items hfirst _ ih =>
    rcases List.mem_cons.mp hmem with rfl | hlater
    · rw [List.find?_cons, hholds]
    · have hnot : (extent first).holds offset = false := by
        have hle := hfirst item hlater
        simp only [Extent.holds, Bool.and_eq_true, decide_eq_true_eq, Bool.and_eq_false_iff,
          decide_eq_false_iff_not] at hholds ⊢
        omega
      rw [List.find?_cons, hnot]
      exact ih hlater

/-- The style of a diagnostic. -/
def Diagnostic.styled (colors : OutputColors) (diagnostic : Diagnostic) : StyledExtent :=
  ⟨diagnostic.extent, .heavy (diagnostic.severity.color colors)⟩

/-- The link of a diagnostic. -/
def Diagnostic.linked (diagnostic : Diagnostic) : Link :=
  ⟨diagnostic.link, diagnostic.target⟩

theorem styles_renderReport (report : Text) (colors : OutputColors) :
    (renderReport report colors).1.styles =
      (Chunk.output report colors).styles ++
        (Diagnostic.parseAll report).map (Diagnostic.styled colors) := by
  unfold renderReport Diagnostic.styled
  generalize Diagnostic.parseAll report = diagnostics
  rfl

theorem links_renderReport (report : Text) (colors : OutputColors) :
    (renderReport report colors).1.links =
      (Diagnostic.parseAll report).map Diagnostic.linked := by
  unfold renderReport Diagnostic.linked
  generalize Diagnostic.parseAll report = diagnostics
  rfl

/-- The link under an offset is that of the diagnostic whose row and column stand there. -/
theorem linkAt?_renderReport {report : Text} {colors : OutputColors} {offset : Nat} {spot : Spot} :
    (renderReport report colors).1.linkAt? offset = some spot ↔
      ∃ diagnostic ∈ Diagnostic.parseAll report,
        diagnostic.link.holds offset = true ∧ diagnostic.target = spot := by
  have hpairwise := Diagnostic.pairwise_link_parseAll report
  rw [Chunk.linkAt?, links_renderReport, List.find?_map, Option.map_map]
  generalize Diagnostic.parseAll report = diagnostics at hpairwise ⊢
  constructor
  · intro h
    obtain ⟨diagnostic, hfind, htarget⟩ := Option.map_eq_some_iff.mp h
    have hholds := List.find?_some hfind
    exact ⟨diagnostic, List.mem_of_find?_eq_some hfind, hholds, htarget⟩
  · rintro ⟨diagnostic, hmem, hholds, rfl⟩
    have hfind := find?_holds_of_pairwise hpairwise hmem hholds
    exact Option.map_eq_some_iff.mpr ⟨diagnostic, hfind, rfl⟩

/-- A chunk that shows a report with its diagnostics over some styles. -/
structure Rendered (report : Text) (colors : OutputColors) (base : List StyledExtent)
    (chunk : Chunk) : Prop where
  text : chunk.text = report
  styles : chunk.styles = base ++ (Diagnostic.parseAll report).map (Diagnostic.styled colors)
  /-- A link leads to the spot of a diagnostic, under its row and column and nowhere else. -/
  links : ∀ offset spot, chunk.linkAt? offset = some spot ↔
    ∃ diagnostic ∈ Diagnostic.parseAll report,
      diagnostic.link.holds offset = true ∧ diagnostic.target = spot

/--
The diagnostics of a report stand in it as they are written, one behind the other.  The report
is shown in the color of output, if there is anything to show, with a style and a link for each.
-/
theorem renderReport_faithful (report : Text) (colors : OutputColors) :
    (∀ diagnostic ∈ Diagnostic.parseAll report, diagnostic.Faithful report) ∧
      (Diagnostic.parseAll report).Pairwise (fun a b => a.extent.stop ≤ b.extent.start) ∧
      (renderReport report colors).2 = Diagnostic.parseAll report ∧
      Rendered report colors
        (if report = [] then [] else [⟨Extent.whole report, .regular colors.text⟩])
        (renderReport report colors).1 := by
  refine ⟨fun _ h => Diagnostic.faithful_of_mem_parseAll h, Diagnostic.pairwise_parseAll report,
    snd_renderReport report colors, text_renderReport report colors, ?_,
    fun _ _ => linkAt?_renderReport⟩
  rw [styles_renderReport]
  simp only [Chunk.output, Chunk.plain, List.isEmpty_iff]

/-- An empty report is shown without a style, not with one over all of it. -/
theorem not_rendered_nil : ¬ Rendered [] .standard
    [⟨Extent.whole [], .regular OutputColors.standard.text⟩] (renderReport [] .standard).1 := by
  intro h
  have hstyles := h.styles
  rw [styles_renderReport] at hstyles
  generalize Diagnostic.parseAll [] = diagnostics at hstyles
  have hbase := List.append_cancel_right hstyles
  simp [Chunk.output, Chunk.plain] at hbase

end ScratchEditor

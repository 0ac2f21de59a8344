import ScratchEditor.Proofs.Pattern.Scan
import ScratchEditor.Proofs.Report.Reading

/-!
# The diagnostics of a report

A report is scanned for entries.  Every entry whose row and column are positive counts makes
a diagnostic, which stands where the entry stands.

Main definitions:

- `Diagnostic.entryAt?`: the entry at an offset of a report.
- `Diagnostic.Entry.diagnostic?`: the diagnostic of an entry at an offset.

Main results:

- `Diagnostic.ofFound?_found`: the diagnostic of the match that takes an entry.
- `Diagnostic.parseAll_eq`: the diagnostics of a report are those of the entries of a scan.
-/

namespace ScratchEditor

namespace Diagnostic

/-! ## Positive counts -/

/-- Digits are read as the number they stand for, if this is a positive count. -/
theorem positive?_eq_some_iff {digits : Text} (hne : digits ≠ [])
    (hdigits : ∀ c ∈ digits, c.isDigit = true) {n : Nat} :
    positive? digits = some n ↔ Nat.ofDigitChars 10 digits 0 = n ∧ 0 < n ∧ n < countLimit := by
  have hread (m : Nat) : readDigits 0 digits = .ok m ↔
      Nat.ofDigitChars 10 digits 0 = m ∧ m < countLimit :=
    readDigits_eq_ok_iff hdigits (by decide)
  rw [positive?, readCount_of_digits hne hdigits]
  cases hvalue : readDigits 0 digits with
  | error cause =>
    simp only [reduceCtorEq, false_iff]
    rintro ⟨hn, -, hlt⟩
    rw [(hread n).mpr ⟨hn, hlt⟩] at hvalue
    cases hvalue
  | ok m =>
    obtain ⟨hm, hlt⟩ := (hread m).mp hvalue
    rw [hm]
    by_cases hzero : m = 0
    · simp only [hzero, if_true, reduceCtorEq, false_iff]
      rintro ⟨rfl, hpos, -⟩
      exact absurd hpos (Nat.lt_irrefl 0)
    · simp only [hzero, if_false, Option.some.injEq]
      constructor
      · rintro rfl
        exact ⟨rfl, Nat.pos_of_ne_zero hzero, hlt⟩
      · exact And.left

/-! ## Where the parts of an entry stand -/

/-- The part of a text behind so many characters. -/
theorem slice_of_eq {text : Text} {start : Nat} (before part behind : Text)
    (htext : text = before ++ (part ++ behind)) (hstart : start = before.length) :
    text.slice ⟨start, part.length⟩ = part := by
  simp [Text.slice, htext, hstart]

namespace Entry

/-- The extent of the entry at an offset, without its ending. -/
def extent (entry : Entry) (offset : Nat) : Extent :=
  ⟨offset, entry.text.length⟩

/-- The extents of the parts of the entry at an offset. -/
def fileExtent (entry : Entry) (offset : Nat) : Extent :=
  ⟨offset, entry.file.length⟩

@[inherit_doc fileExtent]
def rowExtent (entry : Entry) (offset : Nat) : Extent :=
  ⟨offset + entry.file.length + 1, entry.heading.row.length⟩

@[inherit_doc fileExtent]
def columnExtent (entry : Entry) (offset : Nat) : Extent :=
  ⟨offset + entry.file.length + entry.heading.row.length + 2, entry.heading.column.length⟩

@[inherit_doc fileExtent]
def labelExtent (entry : Entry) (offset : Nat) : Extent :=
  ⟨offset + entry.file.length + entry.heading.row.length + entry.heading.column.length + 4,
    entry.heading.severity.label.toList.length⟩

@[inherit_doc fileExtent]
def messageExtent (entry : Entry) (offset : Nat) : Extent :=
  ⟨offset + entry.file.length + entry.heading.text.length, entry.message.length⟩

/-- The extent of the row and the column of the entry at an offset. -/
def link (entry : Entry) (offset : Nat) : Extent :=
  ⟨offset + entry.file.length + 1, entry.heading.row.length + 1 + entry.heading.column.length⟩

/-- The diagnostic of an entry at an offset, unless its row or column is no positive count. -/
def diagnostic? (entry : Entry) (offset : Nat) : Option Diagnostic := do
  let row ← positive? entry.heading.row
  let column ← positive? entry.heading.column
  return ⟨entry.file, row, column, entry.heading.severity, entry.message, entry.extent offset,
    entry.link offset⟩

/-- What a diagnostic is made of. -/
theorem diagnostic?_eq_some {entry : Entry} {offset : Nat} {diagnostic : Diagnostic}
    (h : entry.diagnostic? offset = some diagnostic) :
    ∃ row column, positive? entry.heading.row = some row ∧
      positive? entry.heading.column = some column ∧
        diagnostic = ⟨entry.file, row, column, entry.heading.severity, entry.message,
          entry.extent offset, entry.link offset⟩ := by
  obtain ⟨row, hrow, hrest⟩ := Option.bind_eq_some_iff.mp h
  obtain ⟨column, hcolumn, heq⟩ := Option.bind_eq_some_iff.mp hrest
  exact ⟨row, column, hrow, hcolumn, (Option.some.inj heq).symm⟩

theorem length_whole (entry : Entry) :
    entry.whole.length = entry.text.length + entry.ending.length := by
  simp [whole]

theorem length_text (entry : Entry) : entry.text.length =
    entry.file.length + entry.heading.text.length + entry.message.length := by
  simp [text, Nat.add_assoc]

theorem length_whole_pos (entry : Entry) : 0 < entry.whole.length := by
  have hheading := entry.heading.length_text
  have htext := entry.length_text
  rw [entry.length_whole]
  omega

/-! The entry and its link end where their last parts do. -/

theorem stop_messageExtent (entry : Entry) (offset : Nat) :
    (entry.messageExtent offset).stop = (entry.extent offset).stop := by
  have htext := entry.length_text
  simp only [messageExtent, extent, Extent.stop]
  omega

theorem stop_columnExtent (entry : Entry) (offset : Nat) :
    (entry.columnExtent offset).stop = (entry.link offset).stop := by
  simp only [columnExtent, link, Extent.stop]
  omega

theorem start_le_start_link (entry : Entry) (offset : Nat) :
    offset ≤ (entry.link offset).start := by
  simp only [link]
  omega

theorem start_link_le (entry : Entry) (offset : Nat) :
    (entry.link offset).start ≤ (entry.link offset).stop :=
  Nat.le_add_right _ _

theorem stop_link_le (entry : Entry) (offset : Nat) :
    (entry.link offset).stop ≤ (entry.extent offset).stop := by
  have hheading := entry.heading.length_text
  have htext := entry.length_text
  simp only [link, extent, Extent.stop]
  omega

/-- The parts of an entry are the slices of a report where they stand. -/
structure At (report : Text) (entry : Entry) (offset : Nat) : Prop where
  stop_le : (entry.extent offset).stop ≤ report.length
  file : report.slice (entry.fileExtent offset) = entry.file
  row : report.slice (entry.rowExtent offset) = entry.heading.row
  column : report.slice (entry.columnExtent offset) = entry.heading.column
  label : report.slice (entry.labelExtent offset) = entry.heading.severity.label.toList
  message : report.slice (entry.messageExtent offset) = entry.message
  text : report.slice (entry.extent offset) = entry.text
  link : report.slice (entry.link offset) = entry.heading.row ++ ':' :: entry.heading.column

/-- Where a report goes on with an entry its parts are slices. -/
theorem at_of_prefix {report : Text} {entry : Entry} {offset : Nat}
    (hentry : entry.whole <+: report.drop offset) (hoffset : offset ≤ report.length) :
    entry.At report offset := by
  obtain ⟨behind, hbehind⟩ := hentry
  obtain ⟨before, hbefore, hreport⟩ : ∃ before, before.length = offset ∧
      report = before ++ (entry.whole ++ behind) :=
    ⟨report.take offset, List.length_take_of_le hoffset, by
      rw [hbehind, List.take_append_drop]⟩
  obtain ⟨file, ⟨row, column, severity⟩, message, ending⟩ := entry
  constructor
  case stop_le => simp [hreport, hbefore, Extent.stop, extent, whole]
  case file =>
    exact slice_of_eq before file
      ((Heading.mk row column severity).text ++ message ++ ending ++ behind)
      (by simp [hreport, whole, Entry.text]) hbefore.symm
  case row =>
    exact slice_of_eq (before ++ file ++ [':']) row (':' :: column ++ ": ".toList ++
      severity.label.toList ++ ": ".toList ++ message ++ ending ++ behind)
      (by simp [hreport, whole, Entry.text, Heading.text]) (by simp [hbefore, Nat.add_assoc])
  case column =>
    exact slice_of_eq (before ++ file ++ ':' :: row ++ [':']) column (": ".toList ++
      severity.label.toList ++ ": ".toList ++ message ++ ending ++ behind)
      (by simp [hreport, whole, Entry.text, Heading.text]) (by simp [hbefore]; omega)
  case label =>
    exact slice_of_eq (before ++ file ++ ':' :: row ++ ':' :: column ++ ": ".toList)
      severity.label.toList (": ".toList ++ message ++ ending ++ behind)
      (by simp [hreport, whole, Entry.text, Heading.text]) (by simp [hbefore]; omega)
  case message =>
    exact slice_of_eq (before ++ file ++ (Heading.mk row column severity).text) message
      (ending ++ behind) (by simp [hreport, whole, Entry.text])
      (by simp [hbefore, Nat.add_assoc])
  case text =>
    exact slice_of_eq before _ (ending ++ behind) (by simp [hreport, whole]) hbefore.symm
  case link =>
    have hlength : row.length + 1 + column.length = (row ++ ':' :: column).length := by
      simp [Nat.add_assoc, Nat.add_comm 1]
    rw [Entry.link, hlength]
    exact slice_of_eq (before ++ file ++ [':']) _ (": ".toList ++
      severity.label.toList ++ ": ".toList ++ message ++ ending ++ behind)
      (by simp [hreport, whole, Entry.text, Heading.text]) (by simp [hbefore, Nat.add_assoc])

/-! ## What the groups of a match and the meter tell -/

section

variable (entry : Entry) (report : Text) (offset : Nat)

theorem group?_file : (entry.found report offset).group? 1 = some (entry.fileExtent offset) :=
  rfl

theorem group?_row : (entry.found report offset).group? 2 = some (entry.rowExtent offset) :=
  rfl

theorem group?_column : (entry.found report offset).group? 3 = some (entry.columnExtent offset) :=
  rfl

theorem group?_label : (entry.found report offset).group? 4 = some (entry.labelExtent offset) :=
  rfl

theorem group?_message :
    (entry.found report offset).group? 5 = some (entry.messageExtent offset) :=
  rfl

end

end Entry

/--
The diagnostic of the match that takes an entry.  The meter visits the beginning of the entry,
both ends of the link and the end of the message, where it stays.
-/
theorem ofFound?_found {report : Text} {entry : Entry} {offset i : Nat}
    (hentry : entry.At report offset) (hi : i ≤ offset) :
    ofFound? report (.behind report i) (entry.found report offset) =
      (entry.diagnostic? offset).map fun diagnostic =>
        (diagnostic, .behind report (entry.extent offset).stop) := by
  have hstart := entry.start_le_start_link offset
  have hlink := entry.start_link_le offset
  have hstop := entry.stop_link_le offset
  have hlast := hentry.stop_le
  have hentryStart : offset ≤ report.length := by
    omega
  have hlinkStart : (entry.link offset).start ≤ report.length := by
    omega
  have hatFile : (OffsetMeter.behind report i).advance
      (report.byteOffset (entry.fileExtent offset).start) = .behind report offset :=
    OffsetMeter.advance_behind hi hentryStart
  have hatRow : (OffsetMeter.behind report offset).advance
      (report.byteOffset (entry.rowExtent offset).start) =
        .behind report (entry.link offset).start :=
    OffsetMeter.advance_behind hstart hlinkStart
  have hbehindColumn := OffsetMeter.advance_behind hlink (Nat.le_trans hstop hlast)
  have hbehindMessage := OffsetMeter.advance_behind hstop hlast
  simp only [ofFound?, Entry.group?_file, Entry.group?_row, Entry.group?_column,
    Entry.group?_label, Entry.group?_message, Option.bind_eq_bind, Option.bind_some, hentry.file,
    hentry.row, hentry.column, hentry.label, hentry.message, Severity.ofLabel?_label,
    Entry.stop_messageExtent, Entry.stop_columnExtent, hatFile, hatRow, hbehindColumn,
    hbehindMessage, Entry.diagnostic?]
  have hextent : Extent.between offset (entry.extent offset).stop = entry.extent offset :=
    Extent.between_add _ _
  have hlinkExtent : Extent.between (entry.link offset).start (entry.link offset).stop =
      entry.link offset := Extent.between_add _ _
  cases positive? entry.heading.row with
  | none => rfl
  | some row =>
    cases positive? entry.heading.column with
    | none => rfl
    | some column =>
      simp only [Option.bind_some, Option.pure_def, Option.map_some, OffsetMeter.behind, hextent,
        hlinkExtent]

/-! ## Scanning a report -/

/-- The entry at an offset of a report, with all that it takes. -/
def entryAt? (report : Text) (offset : Nat) : Option (Entry × Extent) :=
  (entryOf? (report.drop offset)).map fun entry => (entry, ⟨offset, entry.whole.length⟩)

/-- At the end of a report a scan finds nothing. -/
theorem scan_end (report : Text) : Scan (entryAt? report) report.length report.length [] := by
  have hnone : entryAt? report report.length = none := by
    rw [entryAt?, List.drop_length]
    rfl
  exact .skip (Nat.le_refl _) hnone (.stop (Nat.lt_succ_self _))

/-- The diagnostic of an entry that a scan finds. -/
def diagnosticOf? (token : Entry × Extent) : Option Diagnostic :=
  token.1.diagnostic? token.2.start

/-- A match with its extent. -/
def withExtent (found : Found) : Option (Found × Extent) :=
  some (found, found.extent)

/-- A match begins where an entry does. -/
theorem head_patternNode (report : Text) (offset : Nat) :
    Found.head patternNode.matchAt? report withExtent offset =
      (entryAt? report offset).map fun token => (token.1.found report offset, token.2) := by
  rw [Found.head, matchAt?_patternNode, entryAt?, Option.map_map]
  cases entryOf? (report.drop offset) with
  | none => rfl
  | some entry => simp [withExtent]

/-- The matches of the pattern are those of a scan. -/
theorem scan_findAll_patternNode (report : Text) :
    Scan (Found.head patternNode.matchAt? report withExtent) report.length 0
      ((patternNode.findAll report).filterMap withExtent) := by
  apply Found.scan_all patternNode.sound
  intro offset found hoffset hfound
  rw [matchAt?_patternNode] at hfound
  obtain ⟨entry, -, rfl⟩ := Option.map_eq_some_iff.mp hfound
  have hpos := entry.length_whole_pos
  rw [if_neg]
  · exact ⟨_, rfl, rfl⟩
  · simp [Extent.isEmpty, Nat.ne_of_gt hpos]

/--
The matches of a scan give the diagnostics of the entries.  The meter has not passed the place
that the scan is at, so it can go on to every entry behind it.
-/
theorem ofMatches_of_scan {report : Text} {offset i : Nat} {founds : List (Found × Extent)}
    (h : Scan (Found.head patternNode.matchAt? report withExtent) report.length offset founds)
    (hi : i ≤ offset) :
    ∃ tokens, Scan (entryAt? report) report.length offset tokens ∧
      ofMatches report (.behind report i) (founds.map Prod.fst) =
        tokens.filterMap diagnosticOf? := by
  induction h generalizing i with
  | stop hlimit => exact ⟨[], .stop hlimit, rfl⟩
  | skip hlimit hhead hnext ih =>
    obtain ⟨tokens, hscan, htokens⟩ := ih (Nat.le_succ_of_le hi)
    rw [head_patternNode, Option.map_eq_none_iff] at hhead
    exact ⟨tokens, .skip hlimit hhead hscan, htokens⟩
  | @take offset _ founds hlimit hhead hnext ih =>
    rw [head_patternNode] at hhead
    obtain ⟨token, hentryAt, rfl⟩ := Option.map_eq_some_iff.mp hhead
    obtain ⟨entry, hentry, rfl⟩ := Option.map_eq_some_iff.mp hentryAt
    have hat := Entry.at_of_prefix (entryOf?_sound hentry).whole_begins hlimit
    have hle : (entry.extent offset).stop ≤ offset + entry.whole.length := by
      simp [Entry.extent, Extent.stop, entry.length_whole]
    have htoken : diagnosticOf? (entry, ⟨offset, entry.whole.length⟩) =
        entry.diagnostic? offset := rfl
    rw [List.map_cons, ofMatches, ofFound?_found hat hi]
    cases hdiagnostic : entry.diagnostic? offset with
    | none =>
      obtain ⟨tokens, hscan, htokens⟩ := ih (Nat.le_trans hi (Nat.le_add_right offset _))
      refine ⟨(entry, ⟨offset, entry.whole.length⟩) :: tokens, .take hlimit hentryAt hscan, ?_⟩
      rw [List.filterMap_cons_none (htoken.trans hdiagnostic)]
      exact htokens
    | some diagnostic =>
      obtain ⟨tokens, hscan, htokens⟩ := ih hle
      refine ⟨(entry, ⟨offset, entry.whole.length⟩) :: tokens, .take hlimit hentryAt hscan, ?_⟩
      rw [List.filterMap_cons_some (htoken.trans hdiagnostic)]
      exact congrArg (diagnostic :: ·) htokens

theorem map_fst_withExtent (founds : List Found) :
    (founds.filterMap withExtent).map Prod.fst = founds := by
  rw [List.map_filterMap]
  exact List.filterMap_some

/-- The diagnostics of a report are those of the entries that a scan finds. -/
theorem parseAll_eq (report : Text) :
    ∃ tokens, Scan (entryAt? report) report.length 0 tokens ∧
      parseAll report = tokens.filterMap diagnosticOf? := by
  have hmatches := ofMatches_of_scan (scan_findAll_patternNode report) (Nat.le_refl 0)
  rw [map_fst_withExtent] at hmatches
  exact hmatches

end Diagnostic

end ScratchEditor

import ScratchEditor.Proofs.Report.Faithful
import ScratchEditor.Proofs.Report.Joined

/-!
# Reading a written report

A report is written as its diagnostics one behind the other, a blank line behind each.  It is
read as it was written, if no message holds a blank line or ends in a line break, and no first
line of a message holds a heading.

Main definitions:

- `Notice`: what a report tells.
- `Notice.WellFormed`: a notice that can be read back.
- `Notice.write`: notices as a report.

Main results:

- `Notice.WellFormed.entryOf?_whole`: a well-formed notice is the entry that is found.
- `Notice.parseAll_write`: a report is read as it was written.
-/

namespace ScratchEditor

namespace Diagnostic

/-! ## Headings on a line -/

/-- A text with no heading on its first line does not begin with one. -/
theorem heading?_of_lastHeading?_eq_none {text : Text} (h : lastHeading? text = none) :
    heading? text = none := by
  cases text with
  | nil => rfl
  | cons c rest =>
    rw [lastHeading?, Option.or_eq_none_iff, Option.map_eq_none_iff] at h
    exact Option.map_eq_none_iff.mp h.2

/-- A heading on the first line of a text is found, or another one behind it. -/
theorem lastHeading?_ne_none {before rest : Text} {heading : Heading} (hline : '\n' ∉ before)
    (hwell : heading.WellFormed) : lastHeading? (before ++ (heading.text ++ rest)) ≠ none := by
  intro hnone
  induction before with
  | nil =>
    have hheading := heading?_eq_some_iff.mpr ⟨hwell, List.prefix_append heading.text rest⟩
    rw [List.nil_append] at hnone
    rw [heading?_of_lastHeading?_eq_none hnone] at hheading
    cases hheading
  | cons c before ih =>
    rw [List.mem_cons, not_or] at hline
    rcases lastHeading?_tail hnone with hc | htail
    · exact hline.1 hc.symm
    · exact ih hline.2 htail

/-- There is no last heading on a line exactly if it holds none. -/
theorem lastHeading?_eq_none_iff {text : Text} :
    lastHeading? text = none ↔ ∀ heading : Heading, heading.WellFormed →
      ¬ heading.text <:+: text.takeWhile (· ≠ '\n') := by
  constructor
  · rintro hnone heading hwell ⟨before, behind, hline⟩
    have hbefore : '\n' ∉ before := by
      intro hmem
      have hall : ∀ c ∈ text.takeWhile (· ≠ '\n'), decide (c ≠ '\n') = true :=
        List.all_eq_true.mp List.all_takeWhile
      exact absurd (hall '\n' (hline ▸ by simp [hmem])) (by decide)
    obtain ⟨rest, hrest⟩ : before ++ heading.text ++ behind <+: text := by
      rw [hline]
      exact List.takeWhile_prefix _
    rw [← hrest, List.append_assoc, List.append_assoc] at hnone
    exact lastHeading?_ne_none hbefore hwell hnone
  · intro h
    cases hlast : lastHeading? text with
    | none => rfl
    | some part =>
      obtain ⟨file, heading⟩ := part
      obtain ⟨hfile, hwell, behind, rfl⟩ := lastHeading?_sound hlast
      have hline : ∀ c ∈ file ++ heading.text, decide (c ≠ '\n') = true := by
        rintro c hc
        rw [decide_eq_true_eq]
        rintro rfl
        rcases List.mem_append.mp hc with hmem | hmem
        · exact hfile hmem
        · exact hwell.line hmem
      refine absurd ?_ (h heading hwell)
      rw [List.takeWhile_append_of_pos hline]
      exact ⟨file, _, rfl⟩

theorem lastHeading?_cons_eq_none {c : Char} {rest : Text} (h : heading? (c :: rest) = none)
    (hrest : lastHeading? rest = none) : lastHeading? (c :: rest) = none := by
  rw [lastHeading?_cons_of_none h, hrest, ite_self]
  rfl

/-- Where no colon stands there is no heading before those behind it. -/
theorem lastHeading?_append_eq_none {part rest : Text} (hpart : ':' ∉ part)
    (hrest : lastHeading? rest = none) : lastHeading? (part ++ rest) = none := by
  induction part with
  | nil => exact hrest
  | cons c part ih =>
    rw [List.mem_cons, not_or] at hpart
    exact lastHeading?_cons_eq_none (heading?_eq_none (Ne.symm hpart.1)) (ih hpart.2)

/-- Behind the colon of a count there are digits. -/
theorem count?_colon_eq_none {c : Char} {rest : Text} (h : c.isDigit = false) :
    count? (':' :: c :: rest) = none := by
  simp [count?, h]

/-- The digits of a column begin no heading, as a blank stands behind the colon after them. -/
theorem heading?_column_eq_none {column rest : Text} (hne : column ≠ [])
    (hdigits : ∀ c ∈ column, c.isDigit = true) :
    heading? (':' :: column ++ ':' :: ' ' :: rest) = none := by
  have hcount : count? (':' :: column ++ ':' :: ' ' :: rest) =
      some (column, ':' :: ' ' :: rest) :=
    count?_eq_some_iff.mpr ⟨rfl, hne, hdigits, by
      rintro c ⟨⟩
      rfl⟩
  rw [heading?, hcount, Option.bind_eq_bind, Option.bind_some]
  dsimp only
  rw [count?_colon_eq_none rfl]
  rfl

/-- Behind its first colon a heading holds no other one. -/
theorem lastHeading?_append {heading : Heading} (h : heading.WellFormed) {behind : Text}
    (hbehind : lastHeading? behind = none) :
    lastHeading? (heading.text ++ behind) = some ([], heading) := by
  have hsplit : heading.text ++ behind = ':' :: (heading.row ++ (':' :: heading.column ++
      ':' :: ' ' :: (heading.severity.label.toList ++ ':' :: ' ' :: behind))) := by
    simp [Heading.text]
  have hlabel : ':' ∉ heading.severity.label.toList := by
    cases heading.severity <;> decide
  have hblank : lastHeading? (':' :: ' ' :: behind) = none :=
    lastHeading?_cons_eq_none (by rw [heading?, count?_colon_eq_none rfl]; rfl)
      (lastHeading?_cons_eq_none (heading?_eq_none (by decide)) hbehind)
  have hseverity : lastHeading? (':' :: ' ' ::
      (heading.severity.label.toList ++ ':' :: ' ' :: behind)) = none :=
    lastHeading?_cons_eq_none (by rw [heading?, count?_colon_eq_none rfl]; rfl)
      (lastHeading?_cons_eq_none (heading?_eq_none (by decide))
        (lastHeading?_append_eq_none hlabel hblank))
  have hcolumn : lastHeading? (':' :: heading.column ++
      ':' :: ' ' :: (heading.severity.label.toList ++ ':' :: ' ' :: behind)) = none :=
    lastHeading?_cons_eq_none (heading?_column_eq_none h.column_ne h.column_digits)
      (lastHeading?_append_eq_none (not_mem_of_isDigit rfl h.column_digits) hseverity)
  have hrow := lastHeading?_append_eq_none (not_mem_of_isDigit rfl h.row_digits) hcolumn
  have hheading := heading?_eq_some_iff.mpr ⟨h, List.prefix_append heading.text behind⟩
  rw [hsplit] at hheading ⊢
  rw [lastHeading?, hheading, hrow, ite_self]
  rfl

/-- Before the last heading stands the file, whatever it looks like. -/
theorem lastHeading?_append_line {file rest : Text} {heading : Heading} (hfile : '\n' ∉ file)
    (hrest : lastHeading? rest = some ([], heading)) :
    lastHeading? (file ++ rest) = some (file, heading) := by
  induction file with
  | nil => exact hrest
  | cons c file ih =>
    rw [List.mem_cons, not_or] at hfile
    rw [List.cons_append, lastHeading?, if_neg (Ne.symm hfile.1), ih hfile.2]
    rfl

/-! ## Messages -/

/-- A text is cut where the first ending is. -/
theorem splitMessage_append {message behind ending : Text}
    (hnone : ∀ tail, tail ≠ [] → tail <:+ message → ending? (tail ++ behind) = none)
    (hending : ending? behind = some ending) :
    splitMessage (message ++ behind) = (message, ending) := by
  induction message with
  | nil =>
    cases behind with
    | nil =>
      have hlast : ending? [] = some [] := rfl
      rw [List.nil_append, splitMessage, Option.some.inj (hlast.symm.trans hending)]
    | cons c rest => rw [List.nil_append, splitMessage, hending]
  | cons c message ih =>
    have hhere := hnone (c :: message) (List.cons_ne_nil c message) List.suffix_rfl
    have hlater := ih fun tail hne htail =>
      hnone tail hne (htail.trans (List.suffix_cons c message))
    rw [List.cons_append] at hhere ⊢
    rw [splitMessage, hhere, hlater]

/-- A message without a blank line holds no two line breaks in a row. -/
theorem NoBlankLine.not_infix {message : Text} (h : NoBlankLine message) {first second : Text}
    (hfirst : IsLineBreak first) (hsecond : IsLineBreak second) :
    ¬ first ++ second <:+: message := by
  -- A carriage return before the first line feed makes no difference.
  have hfeed : ¬ '\n' :: second <:+: message := by
    rcases hsecond with rfl | rfl
    · exact h.1
    · exact h.2
  intro hinfix
  rcases hfirst with rfl | rfl
  · exact hfeed hinfix
  · exact hfeed ((List.suffix_cons '\r' _).isInfix.trans hinfix)

/-- No ending begins in a message without a blank line that does not end in a part of one. -/
theorem ending?_append_eq_none {message tail : Text} (hblank : NoBlankLine message)
    (hfeed : message.getLast? ≠ some '\n') (hreturn : message.getLast? ≠ some '\r')
    (hne : tail ≠ []) (htail : tail <:+ message) (rest : Text) :
    ending? (tail ++ ("\n\n".toList ++ rest)) = none := by
  have hfeed' := getLast?_ne_of_suffix htail hfeed
  have hreturn' := getLast?_ne_of_suffix htail hreturn
  refine ending?_append_blank_eq_none hne hreturn' ?_ rest
  rw [Option.eq_none_iff_forall_ne_some]
  intro ending hending
  obtain ⟨hbegins, ⟨first, second, hfirst, hsecond, rfl⟩ | ⟨hlast, rfl⟩⟩ := ending?_sound hending
  · exact hblank.not_infix hfirst hsecond (hbegins.isInfix.trans htail.isInfix)
  · have hends : ∀ lineBreak ∈ lastBreaks, lineBreak = [] ∨ lineBreak.getLast? = some '\n' ∨
        lineBreak.getLast? = some '\r' := by
      decide
    rcases hends _ hlast with hnil | hends | hends
    · exact hne hnil
    · exact hfeed' hends
    · exact hreturn' hends

end Diagnostic

/-! ## Notices -/

/-- What a report tells about a place in a file. -/
structure Notice where
  file : Text
  row : Nat
  column : Nat
  severity : Severity
  message : Text
deriving DecidableEq

/-- What a diagnostic tells, wherever it stands. -/
def Diagnostic.notice (diagnostic : Diagnostic) : Notice :=
  ⟨diagnostic.file, diagnostic.row, diagnostic.column, diagnostic.severity, diagnostic.message⟩

namespace Notice

open Diagnostic

/-- A notice that is read back from a report. -/
structure WellFormed (notice : Notice) : Prop where
  row_pos : 1 ≤ notice.row
  row_lt : notice.row < countLimit
  column_pos : 1 ≤ notice.column
  column_lt : notice.column < countLimit
  file_line : '\n' ∉ notice.file
  message_noBlankLine : NoBlankLine notice.message
  message_feed : notice.message.getLast? ≠ some '\n'
  message_return : notice.message.getLast? ≠ some '\r'
  /-- No digits between colons with the word of a severity stand on the first line. -/
  message_heading : ∀ heading : Heading, heading.WellFormed →
    ¬ heading.text <:+: notice.message.takeWhile (· ≠ '\n')

theorem wellFormed_iff {notice : Notice} : notice.WellFormed ↔
    (1 ≤ notice.row ∧ notice.row < countLimit) ∧
      (1 ≤ notice.column ∧ notice.column < countLimit) ∧ '\n' ∉ notice.file ∧
        NoBlankLine notice.message ∧ notice.message.getLast? ≠ some '\n' ∧
          notice.message.getLast? ≠ some '\r' ∧ lastHeading? notice.message = none := by
  rw [lastHeading?_eq_none_iff]
  constructor
  · intro h
    exact ⟨⟨h.row_pos, h.row_lt⟩, ⟨h.column_pos, h.column_lt⟩, h.file_line,
      h.message_noBlankLine, h.message_feed, h.message_return, h.message_heading⟩
  · rintro ⟨⟨hrow, hrow'⟩, ⟨hcolumn, hcolumn'⟩, hfile, hblank, hfeed, hreturn, hheading⟩
    exact ⟨hrow, hrow', hcolumn, hcolumn', hfile, hblank, hfeed, hreturn, hheading⟩

instance (message : Text) : Decidable (NoBlankLine message) :=
  inferInstanceAs (Decidable (_ ∧ _))

instance (notice : Notice) : Decidable notice.WellFormed :=
  decidable_of_iff _ wellFormed_iff.symm

/-- The heading of a notice. -/
def heading (notice : Notice) : Heading :=
  ⟨decimal notice.row, decimal notice.column, notice.severity⟩

/-- How a notice is written. -/
def text (notice : Notice) : Text :=
  notice.file ++ ':' :: decimal notice.row ++ ':' :: decimal notice.column ++ ": ".toList ++
    notice.severity.label.toList ++ ": ".toList ++ notice.message

/-- Notices as a report, with a blank line behind each. -/
def write (notices : List Notice) : Text :=
  notices.flatMap fun notice => notice.text ++ "\n\n".toList

/-- The entry that a notice is written as. -/
def entry (notice : Notice) : Entry :=
  ⟨notice.file, notice.heading, notice.message, "\n\n".toList⟩

theorem whole_entry (notice : Notice) : notice.entry.whole = notice.text ++ "\n\n".toList := by
  simp [Entry.whole, Entry.text, entry, heading, Heading.text, text]

variable {notice : Notice}

theorem heading_wellFormed (notice : Notice) : notice.heading.WellFormed := by
  exact ⟨decimal_ne_nil _, isDigit_of_mem_decimal _, decimal_ne_nil _, isDigit_of_mem_decimal _⟩

/-- A well-formed notice is the entry that is found where it is written. -/
theorem WellFormed.entryOf?_whole (h : notice.WellFormed) (rest : Text) :
    entryOf? (notice.entry.whole ++ rest) = some notice.entry := by
  have hwhole : notice.entry.whole ++ rest = notice.file ++ (notice.heading.text ++
      (notice.message ++ ("\n\n".toList ++ rest))) := by
    simp [Entry.whole, Entry.text, entry]
  have hdrop : (notice.file ++ (notice.heading.text ++ (notice.message ++
      ("\n\n".toList ++ rest)))).drop (notice.file.length + notice.heading.text.length) =
        notice.message ++ ("\n\n".toList ++ rest) := by
    rw [← List.append_assoc, ← List.length_append, List.drop_left]
  have hline : (notice.message ++ ("\n\n".toList ++ rest)).takeWhile (· ≠ '\n') =
      notice.message.takeWhile (· ≠ '\n') := by
    rw [List.takeWhile_append]
    split
    · rename_i hlength
      rw [(List.takeWhile_prefix _).eq_of_length hlength]
      exact List.append_nil _
    · rfl
  have hbehind : lastHeading? (notice.message ++ ("\n\n".toList ++ rest)) = none := by
    rw [lastHeading?_eq_none_iff, hline]
    exact h.message_heading
  have hlast := lastHeading?_append_line h.file_line
    (lastHeading?_append notice.heading_wellFormed hbehind)
  have hblank : ending? ("\n\n".toList ++ rest) = some "\n\n".toList :=
    ending?_blankLine (Or.inl rfl) (Or.inl rfl) rest
  have hmessage := splitMessage_append (fun tail hne htail => ending?_append_eq_none
    h.message_noBlankLine h.message_feed h.message_return hne htail rest) hblank
  rw [hwhole, entryOf?, hlast, Option.map_some]
  dsimp only
  rw [hdrop, hmessage]
  rfl

/-- The diagnostic that a notice makes at an offset of a report. -/
def diagnostic (notice : Notice) (offset : Nat) : Diagnostic :=
  ⟨notice.file, notice.row, notice.column, notice.severity, notice.message,
    notice.entry.extent offset, notice.entry.link offset⟩

theorem notice_diagnostic (notice : Notice) (offset : Nat) :
    (notice.diagnostic offset).notice = notice :=
  rfl

theorem WellFormed.diagnostic?_entry (h : notice.WellFormed) (offset : Nat) :
    notice.entry.diagnostic? offset = some (notice.diagnostic offset) := by
  have hread {n : Nat} (hpos : 1 ≤ n) (hlt : n < countLimit) : positive? (decimal n) = some n :=
    (positive?_eq_some_iff (decimal_ne_nil n) (isDigit_of_mem_decimal n)).mpr
      ⟨ofDigitChars_decimal n, hpos, hlt⟩
  have hrow : positive? notice.entry.heading.row = some notice.row := hread h.row_pos h.row_lt
  have hcolumn : positive? notice.entry.heading.column = some notice.column :=
    hread h.column_pos h.column_lt
  rw [Entry.diagnostic?, hrow, hcolumn]
  rfl

theorem write_cons (notice : Notice) (notices : List Notice) :
    write (notice :: notices) = notice.entry.whole ++ write notices := by
  rw [write, List.flatMap_cons, whole_entry, write]

/-- A scan finds the notices that a report goes on with. -/
theorem exists_scan_write {notices : List Notice} (h : ∀ notice ∈ notices, notice.WellFormed)
    (before : Text) :
    ∃ tokens, Scan (entryAt? (before ++ write notices)) (before ++ write notices).length
      before.length tokens ∧
        (tokens.filterMap diagnosticOf?).map Diagnostic.notice = notices := by
  induction notices generalizing before with
  | nil =>
    have hlength : (before ++ write []).length = before.length := by
      simp [write]
    have hend := scan_end (before ++ write [])
    rw [hlength] at hend ⊢
    exact ⟨[], hend, rfl⟩
  | cons notice notices ih =>
    have hwell := h notice List.mem_cons_self
    obtain ⟨tokens, hscan, hnotices⟩ := ih (fun other hmem => h other (List.mem_cons_of_mem _ hmem))
      (before ++ notice.entry.whole)
    have hbehind : (before ++ notice.entry.whole).length =
        before.length + notice.entry.whole.length := List.length_append
    rw [List.append_assoc, ← write_cons, hbehind] at hscan
    have hentry : entryAt? (before ++ write (notice :: notices)) before.length =
        some (notice.entry, ⟨before.length, notice.entry.whole.length⟩) := by
      rw [entryAt?, List.drop_left, write_cons, hwell.entryOf?_whole, Option.map_some]
    have hdiagnostic : diagnosticOf? (notice.entry, ⟨before.length, notice.entry.whole.length⟩) =
        some (notice.diagnostic before.length) := hwell.diagnostic?_entry before.length
    refine ⟨_, .take (by simp) hentry hscan, ?_⟩
    rw [List.filterMap_cons_some hdiagnostic, List.map_cons, notice_diagnostic, hnotices]

/-- A report is read as it was written. -/
theorem parseAll_write {notices : List Notice} (h : ∀ notice ∈ notices, notice.WellFormed) :
    (parseAll (write notices)).map Diagnostic.notice = notices := by
  obtain ⟨tokens, hscan, hparse⟩ := parseAll_eq (write notices)
  obtain ⟨tokens', hscan', hnotices⟩ := exists_scan_write h []
  obtain rfl := hscan.unique hscan'
  rw [hparse]
  exact hnotices

/-- Notices with colons, digits and single line breaks in a file and a message. -/
def colons : List Notice :=
  [⟨"a:1:2: error: b".toList, 7, 18446744073709551615, .error,
      "in:4:5: scope\r\n  1:2: warning: \n^".toList⟩,
    ⟨[], 1, 10, .warning, []⟩]

theorem parseAll_write_colons : (parseAll (write colons)).map Diagnostic.notice = colons :=
  parseAll_write (by decide +kernel)

end Notice

end ScratchEditor

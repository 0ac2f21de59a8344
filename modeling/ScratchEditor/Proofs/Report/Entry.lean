import ScratchEditor.Proofs.Text.Lines
import ScratchEditor.Proofs.Text.Runs
import ScratchEditor.Report.Diagnostic

/-!
# Entries of a report

An entry of a report is what a match of the pattern of diagnostics takes: the name of a file,
a heading with a row, a column and a severity, a message, and the ending that the message
stands before.  The heading is the last one on its line, and the message goes on to the first
ending behind it.

Main definitions:

- `Heading` and `heading?`: the heading that a text begins with.
- `lastHeading?`: the last heading on the first line of a text.
- `ending?` and `splitMessage`: what a message ends before, and a text cut there.
- `Entry` and `entryOf?`: the entry that a text begins with.

Main results:

- `heading?_eq_some_iff`: the headings that a text begins with.
- `entryOf?_sound`: what an entry consists of.
-/

namespace ScratchEditor

namespace Diagnostic

/-! ## Headings -/

/-- What stands between the name of a file and a message. -/
structure Heading where
  /-- The digits of the row. -/
  row : Text
  /-- The digits of the column. -/
  column : Text
  severity : Severity

namespace Heading

/-- How the heading is written. -/
def text (heading : Heading) : Text :=
  ':' :: heading.row ++ ':' :: heading.column ++ ": ".toList ++
    heading.severity.label.toList ++ ": ".toList

theorem length_text (heading : Heading) :
    heading.text.length = heading.row.length + heading.column.length +
      heading.severity.label.toList.length + 6 := by
  simp [text]
  omega

/-- Row and column are written in digits of ASCII. -/
structure WellFormed (heading : Heading) : Prop where
  row_ne : heading.row ≠ []
  row_digits : ∀ c ∈ heading.row, c.isDigit = true
  column_ne : heading.column ≠ []
  column_digits : ∀ c ∈ heading.column, c.isDigit = true

end Heading

/-- The severity that a text begins with, between a colon and a colon, each with a blank. -/
def severity? (text : Text) : Option Severity :=
  [Severity.warning, .error].find? fun severity =>
    (": ".toList ++ severity.label.toList ++ ": ".toList).isPrefixOf text

/-- A colon and some digits, with the text behind them. -/
def count? : Text → Option (Text × Text)
  | ':' :: text =>
    let digits := text.takeWhile Char.isDigit
    if digits = [] then none else some (digits, text.dropWhile Char.isDigit)
  | _ => none

/-- The heading that a text begins with. -/
def heading? (text : Text) : Option Heading := do
  let (row, behindRow) ← count? text
  let (column, behindColumn) ← count? behindRow
  let severity ← severity? behindColumn
  return ⟨row, column, severity⟩

/-- The last heading on the first line of a text, and what stands before it. -/
def lastHeading? : Text → Option (Text × Heading)
  | [] => none
  | c :: rest =>
    ((if c = '\n' then none else lastHeading? rest).map fun part => (c :: part.1, part.2)).or
      ((heading? (c :: rest)).map fun heading => ([], heading))

theorem count?_eq_some_iff {text digits rest : Text} :
    count? text = some (digits, rest) ↔ text = ':' :: digits ++ rest ∧ digits ≠ [] ∧
      (∀ c ∈ digits, c.isDigit = true) ∧ ∀ c ∈ rest.head?, c.isDigit = false := by
  constructor
  · intro h
    unfold count? at h
    split at h
    · rename_i text
      by_cases hnone : text.takeWhile Char.isDigit = []
      · simp [hnone] at h
      · simp only [hnone, if_false, Option.some.injEq, Prod.mk.injEq] at h
        obtain ⟨rfl, rfl⟩ := h
        refine ⟨?_, hnone, List.all_eq_true.mp List.all_takeWhile, ?_⟩
        · rw [List.cons_append, List.takeWhile_append_dropWhile]
        · intro c hc
          have hnot := List.head?_dropWhile_not Char.isDigit text
          rw [hc] at hnot
          simpa using hnot
    · cases h
  · rintro ⟨rfl, hne, hdigits, hrest⟩
    have htake := Text.takeWhile_run hdigits hrest
    have hdrop := Text.dropWhile_run hdigits hrest
    simp [count?, htake, hdrop, hne]

theorem count?_eq_none {c : Char} {rest : Text} (h : c ≠ ':') : count? (c :: rest) = none := by
  unfold count?
  split
  · rename_i heq
    exact absurd (List.cons.inj heq).1 h
  · rfl

theorem heading?_eq_none {c : Char} {rest : Text} (h : c ≠ ':') : heading? (c :: rest) = none := by
  rw [heading?, count?_eq_none h]
  rfl

theorem severity?_eq_some_iff {text : Text} {severity : Severity} :
    severity? text = some severity ↔
      ": ".toList ++ severity.label.toList ++ ": ".toList <+: text := by
  unfold severity?
  constructor
  · intro h
    have hfound := List.find?_some h
    exact List.isPrefixOf_iff_prefix.mp hfound
  · rintro ⟨rest, rfl⟩
    cases severity <;> rfl

/-- The headings that a text begins with. -/
theorem heading?_eq_some_iff {text : Text} {heading : Heading} :
    heading? text = some heading ↔ heading.WellFormed ∧ heading.text <+: text := by
  obtain ⟨row, column, severity⟩ := heading
  unfold heading?
  simp only [Option.bind_eq_bind, Option.bind_eq_some_iff, Option.pure_def, Option.some.injEq,
    Prod.exists, Heading.mk.injEq, count?_eq_some_iff, severity?_eq_some_iff]
  constructor
  · rintro ⟨row', behindRow, ⟨rfl, hrow, hrowDigits, -⟩, column', behindColumn,
      ⟨rfl, hcolumn, hcolumnDigits, -⟩, severity', ⟨rest, rfl⟩, rfl, rfl, rfl⟩
    refine ⟨⟨hrow, hrowDigits, hcolumn, hcolumnDigits⟩, rest, ?_⟩
    simp [Heading.text]
  · rintro ⟨⟨hrow, hrowDigits, hcolumn, hcolumnDigits⟩, rest, rfl⟩
    refine ⟨row, ':' :: column ++ (": ".toList ++ severity.label.toList ++ ": ".toList ++ rest),
      ⟨?_, hrow, hrowDigits, ?_⟩, column,
      ": ".toList ++ severity.label.toList ++ ": ".toList ++ rest,
      ⟨rfl, hcolumn, hcolumnDigits, ?_⟩, severity, ⟨rest, rfl⟩, rfl, rfl, rfl⟩
    · simp [Heading.text]
    · rintro c ⟨⟩
      rfl
    · rintro c ⟨⟩
      rfl

theorem not_mem_of_isDigit {c : Char} (hc : c.isDigit = false) {digits : Text}
    (h : ∀ d ∈ digits, d.isDigit = true) : c ∉ digits := by
  intro hmem
  rw [h c hmem] at hc
  cases hc

/-- A heading stands on one line. -/
theorem Heading.WellFormed.line {heading : Heading} (h : heading.WellFormed) :
    '\n' ∉ heading.text := by
  have hlabel : '\n' ∉ heading.severity.label.toList := by
    cases heading.severity <;> decide
  have hrow : '\n' ∉ heading.row := not_mem_of_isDigit rfl h.row_digits
  have hcolumn : '\n' ∉ heading.column := not_mem_of_isDigit rfl h.column_digits
  simp [Heading.text, hrow, hcolumn, hlabel]

/-- What a text begins with that has a heading on its first line. -/
theorem lastHeading?_sound {text file : Text} {heading : Heading}
    (h : lastHeading? text = some (file, heading)) :
    '\n' ∉ file ∧ heading.WellFormed ∧ file ++ heading.text <+: text := by
  induction text generalizing file with
  | nil => cases h
  | cons c rest ih =>
    rw [lastHeading?, Option.or_eq_some_iff] at h
    rcases h with hlater | ⟨-, hhere⟩
    · obtain ⟨⟨later, heading'⟩, hpart, heq⟩ := Option.map_eq_some_iff.mp hlater
      obtain ⟨rfl, rfl⟩ := Prod.mk.inj heq
      by_cases hc : c = '\n'
      · rw [if_pos hc] at hpart
        cases hpart
      · rw [if_neg hc] at hpart
        obtain ⟨hline, hwell, hbegins⟩ := ih hpart
        refine ⟨?_, hwell, ?_⟩
        · simp [hline, Ne.symm hc]
        · simpa using hbegins
    · obtain ⟨heading', hheading, heq⟩ := Option.map_eq_some_iff.mp hhere
      obtain ⟨rfl, rfl⟩ := Prod.mk.inj heq
      obtain ⟨hwell, hbegins⟩ := heading?_eq_some_iff.mp hheading
      exact ⟨by simp, hwell, hbegins⟩

/-- Behind a character that begins no heading there is one on the line if there is one before. -/
theorem lastHeading?_cons_of_none {c : Char} {rest : Text} (h : heading? (c :: rest) = none) :
    lastHeading? (c :: rest) =
      (if c = '\n' then none else lastHeading? rest).map fun part => (c :: part.1, part.2) := by
  rw [lastHeading?, h, Option.map_none, Option.or_none]

/-- A line without a heading has none behind its first character. -/
theorem lastHeading?_tail {c : Char} {rest : Text} (h : lastHeading? (c :: rest) = none) :
    c = '\n' ∨ lastHeading? rest = none := by
  by_cases hc : c = '\n'
  · exact Or.inl hc
  · right
    rw [lastHeading?, Option.or_eq_none_iff, if_neg hc, Option.map_eq_none_iff] at h
    exact h.1

/-! ## Endings -/

/-- The line break that a text begins with. -/
def lineBreak? (text : Text) : Option Text :=
  [['\r', '\n'], ['\n']].find? fun lineBreak => lineBreak.isPrefixOf text

/-- A line break followed by another one. -/
def blankLine? (text : Text) : Option Text :=
  (lineBreak? text).bind fun first => (lineBreak? (text.drop first.length)).map (first ++ ·)

/-- What may be left of a text behind its last message. -/
def lastBreaks : List Text :=
  [[], ['\r'], ['\n'], ['\r', '\n']]

/-- What a message ends before: a blank line, or what is left at the end of the text. -/
def ending? (text : Text) : Option Text :=
  (blankLine? text).or (if text ∈ lastBreaks then some text else none)

/-- A text cut before the first ending, with this ending. -/
def splitMessage : Text → Text × Text
  | [] => ([], [])
  | c :: rest =>
    match ending? (c :: rest) with
    | some ending => ([], ending)
    | none => (c :: (splitMessage rest).1, (splitMessage rest).2)

/-! ## Entries -/

/-- What a match of the pattern of diagnostics takes. -/
structure Entry where
  file : Text
  heading : Heading
  message : Text
  ending : Text

namespace Entry

/-- The entry without its ending. -/
def text (entry : Entry) : Text :=
  entry.file ++ entry.heading.text ++ entry.message

/-- All that the entry takes of the report. -/
def whole (entry : Entry) : Text :=
  entry.text ++ entry.ending

end Entry

/-- The entry that a text begins with. -/
def entryOf? (text : Text) : Option Entry :=
  (lastHeading? text).map fun part =>
    let behind := splitMessage (text.drop (part.1.length + part.2.text.length))
    ⟨part.1, part.2, behind.1, behind.2⟩

/-! ## What an entry consists of -/

/-- A line feed, perhaps with a carriage return before it. -/
def IsLineBreak (lineBreak : Text) : Prop :=
  lineBreak = ['\n'] ∨ lineBreak = ['\r', '\n']

theorem lineBreak?_sound {text lineBreak : Text} (h : lineBreak? text = some lineBreak) :
    IsLineBreak lineBreak ∧ lineBreak <+: text := by
  have hmem := List.mem_of_find?_eq_some h
  have hfound := List.find?_some h
  simp only [List.mem_cons, List.not_mem_nil, or_false] at hmem
  exact ⟨hmem.symm, List.isPrefixOf_iff_prefix.mp hfound⟩

/-- A text begins with a line break, whatever follows it. -/
theorem lineBreak?_append {lineBreak : Text} (h : IsLineBreak lineBreak) (rest : Text) :
    lineBreak? (lineBreak ++ rest) = some lineBreak := by
  rcases h with rfl | rfl <;> rfl

theorem blankLine?_append {first second : Text} (hfirst : IsLineBreak first)
    (hsecond : IsLineBreak second) (rest : Text) :
    blankLine? (first ++ (second ++ rest)) = some (first ++ second) := by
  rw [blankLine?, lineBreak?_append hfirst, Option.bind_some, List.drop_left,
    lineBreak?_append hsecond, Option.map_some]

/-- A blank line is an ending, whatever follows it. -/
theorem ending?_blankLine {first second : Text} (hfirst : IsLineBreak first)
    (hsecond : IsLineBreak second) (rest : Text) :
    ending? (first ++ second ++ rest) = some (first ++ second) := by
  rw [List.append_assoc, ending?, blankLine?_append hfirst hsecond]
  rfl

theorem ending?_sound {text ending : Text} (h : ending? text = some ending) :
    ending <+: text ∧ ((∃ first second, IsLineBreak first ∧ IsLineBreak second ∧
      ending = first ++ second) ∨ ending ∈ lastBreaks ∧ ending = text) := by
  rw [ending?, Option.or_eq_some_iff] at h
  rcases h with hblank | ⟨-, hlast⟩
  · obtain ⟨first, hfirst, hrest⟩ := Option.bind_eq_some_iff.mp hblank
    obtain ⟨second, hsecond, rfl⟩ := Option.map_eq_some_iff.mp hrest
    obtain ⟨hfirst', later, rfl⟩ := lineBreak?_sound hfirst
    obtain ⟨hsecond', hbegins⟩ := lineBreak?_sound hsecond
    rw [List.drop_left] at hbegins
    exact ⟨(List.prefix_append_right_inj first).mpr hbegins,
      Or.inl ⟨first, second, hfirst', hsecond', rfl⟩⟩
  · by_cases hmem : text ∈ lastBreaks
    · rw [if_pos hmem] at hlast
      obtain rfl := Option.some.inj hlast
      exact ⟨List.prefix_rfl, Or.inr ⟨hmem, rfl⟩⟩
    · rw [if_neg hmem] at hlast
      cases hlast

/-- A text is cut before the first ending in it. -/
theorem splitMessage_spec (text : Text) :
    ∃ rest, text = (splitMessage text).1 ++ rest ∧ ending? rest = some (splitMessage text).2 ∧
      ∀ n < (splitMessage text).1.length, ending? (text.drop n) = none := by
  induction text with
  | nil => exact ⟨[], rfl, rfl, fun n hn => absurd hn (Nat.not_lt_zero n)⟩
  | cons c text ih =>
    rw [splitMessage]
    cases hending : ending? (c :: text) with
    | some ending => exact ⟨c :: text, rfl, hending, fun n hn => absurd hn (Nat.not_lt_zero n)⟩
    | none =>
      obtain ⟨rest, hsplit, hrest, hbefore⟩ := ih
      refine ⟨rest, congrArg (c :: ·) hsplit, hrest, ?_⟩
      intro n hn
      cases n with
      | zero => exact hending
      | succ n => exact hbefore n (Nat.lt_of_succ_lt_succ hn)

/-- A message holds no blank line. -/
theorem not_infix_splitMessage (text : Text) {first second : Text} (hfirst : IsLineBreak first)
    (hsecond : IsLineBreak second) : ¬ first ++ second <:+: (splitMessage text).1 := by
  rintro ⟨before, behind, hmessage⟩
  obtain ⟨rest, hsplit, -, hnone⟩ := splitMessage_spec text
  have hlt : before.length < (splitMessage text).1.length := by
    have hpos : 0 < first.length := by
      rcases hfirst with rfl | rfl <;> exact Nat.succ_pos _
    rw [← hmessage]
    simp only [List.length_append]
    omega
  have hdrop : text.drop before.length = first ++ second ++ (behind ++ rest) := by
    rw [hsplit, ← hmessage]
    simp
  have hending := hnone before.length hlt
  rw [hdrop, ending?_blankLine hfirst hsecond] at hending
  cases hending

/-- What an entry at the beginning of a text consists of. -/
structure Entry.Sound (text : Text) (entry : Entry) : Prop where
  heading_wellFormed : entry.heading.WellFormed
  file_line : '\n' ∉ entry.file
  whole_begins : entry.whole <+: text
  message_noBlank : ∀ first second, IsLineBreak first → IsLineBreak second →
    ¬ first ++ second <:+: entry.message
  ending_cases : (∃ first second, IsLineBreak first ∧ IsLineBreak second ∧
    entry.ending = first ++ second) ∨ entry.ending ∈ lastBreaks ∧ entry.whole = text

/-- An entry is found only where a text begins with it. -/
theorem entryOf?_sound {text : Text} {entry : Entry} (h : entryOf? text = some entry) :
    entry.Sound text := by
  obtain ⟨⟨file, heading⟩, hlast, rfl⟩ := Option.map_eq_some_iff.mp h
  obtain ⟨hline, hwell, behind, rfl⟩ := lastHeading?_sound hlast
  have hdrop : (file ++ heading.text ++ behind).drop (file.length + heading.text.length) =
      behind := by
    rw [← List.length_append, List.drop_left]
  obtain ⟨rest, hsplit, hending, -⟩ := splitMessage_spec behind
  obtain ⟨⟨later, hlater⟩, hcases⟩ := ending?_sound hending
  have hwhole (ending : Text) : Entry.whole ⟨file, heading, (splitMessage behind).1, ending⟩ =
      file ++ heading.text ++ (splitMessage behind).1 ++ ending := rfl
  dsimp only
  rw [hdrop]
  refine ⟨hwell, hline, ⟨later, ?_⟩, fun first second hfirst hsecond =>
    not_infix_splitMessage behind hfirst hsecond, hcases.imp_right fun hend => ⟨hend.1, ?_⟩⟩
  · rw [hwhole, List.append_assoc _ _ later, hlater, List.append_assoc _ _ rest, ← hsplit]
  · rw [hwhole, hend.2, List.append_assoc _ _ rest, ← hsplit]

end Diagnostic

end ScratchEditor

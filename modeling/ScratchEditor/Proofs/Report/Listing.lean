import ScratchEditor.Proofs.Report.Notices

/-!
# Every heading of a report is listed

A report can be listed line by line.  A line without a heading is passed over.  A line with one
is cut at its last heading, the message goes on to the first place where it may end, and the
next line begins behind this ending.  The matches of the pattern are the entries found in this
way, so a line with a heading is lost only if it lies inside the message of an entry before it.

Main definitions:

- `Diagnostic.Ending`: what a message may end before.
- `Diagnostic.Entry.Begins`: the entry on the first line of a text.
- `Diagnostic.Listing`: the entries of a text, line by line.

Main results:

- `Diagnostic.entryOf?_eq_some_iff`: the entry that a text begins with.
- `Diagnostic.Listing.scan`: a listing finds what a scan finds at every character.
- `Diagnostic.parseAll_listing`: the matches and the diagnostics of a report are those of its
  listing, and no line with a heading is lost.
-/

namespace ScratchEditor

namespace Diagnostic

/-! ## Entries on the first line -/

/-- A line that holds a heading. -/
def HasHeading (line : Text) : Prop :=
  ∃ heading : Heading, heading.WellFormed ∧ heading.text <:+: line

/-- What a message may end before, with the text behind it. -/
inductive Ending : Text → Text → Prop
  /-- Two line breaks, whatever follows. -/
  | blank {first second : Text} (hfirst : IsLineBreak first) (hsecond : IsLineBreak second)
    (rest : Text) : Ending (first ++ second) rest
  /-- At the end of the text, at most a carriage return and a line feed. -/
  | last {ending : Text} (hlast : ending ∈ lastBreaks) : Ending ending []

/-- The entry that begins with the first line of a text, and the text behind it. -/
structure Entry.Begins (entry : Entry) (text rest : Text) : Prop where
  text_eq : text = entry.whole ++ rest
  file_line : '\n' ∉ entry.file
  wellFormed : entry.heading.WellFormed
  /-- Further on on the line no heading begins. -/
  heading_last : ∀ (file : Text) (heading : Heading), '\n' ∉ file → heading.WellFormed →
    file ++ heading.text <+: text → file.length ≤ entry.file.length
  ending : Ending entry.ending rest
  /-- Behind a shorter message nothing would end it. -/
  message_shortest : ∀ message ending behind, Ending ending behind →
    entry.message ++ (entry.ending ++ rest) = message ++ (ending ++ behind) →
    entry.message.length ≤ message.length

theorem ending?_eq_some_iff {text ending : Text} :
    ending? text = some ending ↔ ∃ rest, text = ending ++ rest ∧ Ending ending rest := by
  constructor
  · intro h
    obtain ⟨⟨rest, rfl⟩, ⟨first, second, hfirst, hsecond, rfl⟩ | ⟨hlast, hend⟩⟩ := ending?_sound h
    · exact ⟨rest, rfl, .blank hfirst hsecond rest⟩
    · have hnil : rest = [] := List.append_right_eq_self.mp hend.symm
      exact ⟨rest, rfl, hnil ▸ .last hlast⟩
  · rintro ⟨rest, rfl, hending⟩
    cases hending with
    | blank hfirst hsecond => exact ending?_blankLine hfirst hsecond rest
    | last hlast =>
      simp only [lastBreaks, List.mem_cons, List.not_mem_nil, or_false] at hlast
      rcases hlast with rfl | rfl | rfl | rfl <;> rfl

/-- No heading on the line begins behind the last one. -/
theorem length_le_of_lastHeading? {text file file' : Text} {heading heading' : Heading}
    (h : lastHeading? text = some (file, heading)) (hline : '\n' ∉ file')
    (hwell : heading'.WellFormed) (hbegins : file' ++ heading'.text <+: text) :
    file'.length ≤ file.length := by
  induction file' generalizing text file heading with
  | nil => exact Nat.zero_le _
  | cons c file' ih =>
    rw [List.mem_cons, not_or] at hline
    obtain ⟨behind, rfl⟩ := hbegins
    have hsome : lastHeading? (file' ++ (heading'.text ++ behind)) ≠ none :=
      lastHeading?_ne_none hline.2 hwell
    obtain ⟨part, hpart⟩ := Option.ne_none_iff_exists'.mp hsome
    have hlater : lastHeading? (c :: file' ++ heading'.text ++ behind) =
        some (c :: part.1, part.2) := by
      rw [List.append_assoc, List.cons_append, lastHeading?, if_neg (Ne.symm hline.1), hpart]
      rfl
    obtain ⟨rfl, -⟩ := Prod.mk.inj (Option.some.inj (hlater.symm.trans h))
    refine Nat.succ_le_succ (ih hpart hline.2 ?_)
    rw [← List.append_assoc]
    exact List.prefix_append _ _

namespace Entry.Begins

variable {entry : Entry} {text rest : Text}

theorem eq_append (h : entry.Begins text rest) :
    text = entry.file ++ (entry.heading.text ++ (entry.message ++ (entry.ending ++ rest))) := by
  simpa [Entry.whole, Entry.text] using h.text_eq

/-- The heading of the entry is the last one on the line. -/
theorem lastHeading? (h : entry.Begins text rest) :
    Diagnostic.lastHeading? text = some (entry.file, entry.heading) := by
  have htext := h.eq_append
  obtain ⟨⟨file, heading⟩, hpart⟩ := Option.ne_none_iff_exists'.mp
    (htext ▸ lastHeading?_ne_none h.file_line h.wellFormed)
  obtain ⟨hline, hwell, hbegins⟩ := lastHeading?_sound hpart
  have hown : entry.file ++ entry.heading.text <+: text := by
    rw [htext, ← List.append_assoc]
    exact List.prefix_append _ _
  have hlength : entry.file.length = file.length := Nat.le_antisymm
    (length_le_of_lastHeading? hpart h.file_line h.wellFormed hown)
    (h.heading_last file heading hline hwell hbegins)
  obtain rfl : entry.file = file := (List.prefix_of_prefix_length_le
    ((List.prefix_append _ _).trans hown) ((List.prefix_append _ _).trans hbegins)
    hlength.le).eq_of_length hlength
  -- a text begins with one heading only
  rw [htext, List.prefix_append_right_inj] at hbegins hown
  have hheading := (heading?_eq_some_iff.mpr ⟨hwell, hbegins⟩).symm.trans
    (heading?_eq_some_iff.mpr ⟨h.wellFormed, hown⟩)
  rw [hpart, Option.some.inj hheading]

/-- The text behind the heading is cut behind the message of the entry. -/
theorem splitMessage (h : entry.Begins text rest) :
    Diagnostic.splitMessage (entry.message ++ (entry.ending ++ rest)) =
      (entry.message, entry.ending) := by
  refine splitMessage_append ?_ (ending?_eq_some_iff.mpr ⟨rest, rfl, h.ending⟩)
  rintro tail hne ⟨message, hmessage⟩
  by_contra hsome
  obtain ⟨ending, hending⟩ := Option.ne_none_iff_exists'.mp hsome
  obtain ⟨behind, hbehind, hends⟩ := ending?_eq_some_iff.mp hending
  have hshort := h.message_shortest message ending behind hends
    (by rw [← hmessage, List.append_assoc, hbehind])
  rw [← hmessage, List.length_append] at hshort
  exact hne (List.length_eq_zero_iff.mp (by omega))

end Entry.Begins

/-- The entry that a text begins with. -/
theorem entryOf?_eq_some_iff {text : Text} {entry : Entry} :
    entryOf? text = some entry ↔ ∃ rest, entry.Begins text rest := by
  constructor
  · intro h
    obtain ⟨⟨file, heading⟩, hlast, rfl⟩ := Option.map_eq_some_iff.mp h
    obtain ⟨hline, hwell, behind, rfl⟩ := lastHeading?_sound hlast
    have hdrop : (file ++ heading.text ++ behind).drop (file.length + heading.text.length) =
        behind := by
      rw [← List.length_append, List.drop_left]
    obtain ⟨tail, hsplit, hending, hbefore⟩ := splitMessage_spec behind
    obtain ⟨rest, rfl, hends⟩ := ending?_eq_some_iff.mp hending
    dsimp only
    rw [hdrop]
    refine ⟨rest, ?_, hline, hwell, fun _ _ => length_le_of_lastHeading? hlast, hends, ?_⟩
    · rw [Entry.whole, Entry.text, List.append_assoc _ _ rest, List.append_assoc _ _ (_ ++ rest),
        ← hsplit]
    · intro message ending behind' hends' heq
      by_contra hlt
      have hnone := hbefore message.length (Nat.lt_of_not_le hlt)
      rw [hsplit, heq, List.drop_left, ending?_eq_some_iff.mpr ⟨behind', rfl, hends'⟩] at hnone
      cases hnone
  · rintro ⟨rest, h⟩
    rw [entryOf?, h.lastHeading?, Option.map_some]
    dsimp only
    rw [h.eq_append, ← List.append_assoc, ← List.length_append, List.drop_left, h.splitMessage]

/-! ## Lines -/

/-- A text is its first line, or this line with others behind it. -/
theorem exists_line (text : Text) :
    ∃ line, '\n' ∉ line ∧ (text = line ∨ ∃ rest, text = line ++ '\n' :: rest) := by
  by_cases hfeed : '\n' ∈ text
  · obtain ⟨line, rest, htext, hline⟩ := List.eq_append_cons_of_mem hfeed
    exact ⟨line, hline, Or.inr ⟨rest, htext⟩⟩
  · exact ⟨text, hfeed, Or.inl rfl⟩

/-- On a line without a heading there is none, at whatever character one looks. -/
theorem lastHeading?_drop_eq_none {line behind : Text} (hline : '\n' ∉ line)
    (hnone : ¬ HasHeading line) (hbehind : ∀ c ∈ behind.head?, c = '\n') {n : Nat}
    (hn : n ≤ line.length) : lastHeading? ((line ++ behind).drop n) = none := by
  have hfirst : ((line ++ behind).drop n).takeWhile (· ≠ '\n') = line.drop n := by
    have hall : ∀ c ∈ line.drop n, decide (c ≠ '\n') = true := by
      intro c hc
      rw [decide_eq_true_eq]
      rintro rfl
      exact hline (List.mem_of_mem_drop hc)
    rw [List.drop_append_of_le_length hn]
    exact Text.takeWhile_run hall fun c hc => by simp [hbehind c hc]
  rw [lastHeading?_eq_none_iff, hfirst]
  intro heading hwell hinside
  exact hnone ⟨heading, hwell, hinside.trans (List.drop_suffix n line).isInfix⟩

/-! ## Listings -/

/--
The entries of a text that begins at an offset: lines without a heading are passed over, and
behind an entry the listing goes on with the next line.
-/
inductive Listing : Nat → Text → List (Entry × Nat) → Prop
  /-- The last line holds no heading. -/
  | last {offset : Nat} {line : Text} (hline : '\n' ∉ line) (hnone : ¬ HasHeading line) :
    Listing offset line []
  /-- A line without a heading is passed over. -/
  | pass {offset : Nat} {line rest : Text} {entries : List (Entry × Nat)} (hline : '\n' ∉ line)
    (hnone : ¬ HasHeading line) (hrest : Listing (offset + line.length + 1) rest entries) :
    Listing offset (line ++ '\n' :: rest) entries
  /-- An entry begins with the first line. -/
  | take {offset : Nat} {text rest : Text} {entry : Entry} {entries : List (Entry × Nat)}
    (hbegins : entry.Begins text rest)
    (hrest : Listing (offset + entry.whole.length) rest entries) :
    Listing offset text ((entry, offset) :: entries)

/-- A line with a heading begins an entry. -/
theorem HasHeading.exists_begins {line : Text} (h : HasHeading line) (hline : '\n' ∉ line)
    (behind : Text) : ∃ entry rest, Entry.Begins entry (line ++ behind) rest := by
  obtain ⟨heading, hwell, before, after, rfl⟩ := h
  have hbefore : '\n' ∉ before := fun hmem => hline (by simp [hmem])
  have hsome : entryOf? (before ++ heading.text ++ after ++ behind) ≠ none := by
    have hlast : lastHeading? (before ++ (heading.text ++ (after ++ behind))) ≠ none :=
      lastHeading?_ne_none hbefore hwell
    rw [← List.append_assoc, ← List.append_assoc] at hlast
    rwa [entryOf?, Ne, Option.map_eq_none_iff]
  obtain ⟨entry, hentry⟩ := Option.ne_none_iff_exists'.mp hsome
  exact ⟨entry, entryOf?_eq_some_iff.mp hentry⟩

/-- Every text can be listed. -/
theorem exists_listing (offset : Nat) (text : Text) : ∃ entries, Listing offset text entries := by
  induction hlength : text.length using Nat.strong_induction_on generalizing offset text with
  | _ length ih =>
    have htake {entry : Entry} {rest : Text} (hbegins : entry.Begins text rest) :
        ∃ entries, Listing offset text entries := by
      have hpos := entry.length_whole_pos
      have hsum := congrArg List.length hbegins.text_eq
      rw [List.length_append] at hsum
      obtain ⟨entries, hrest⟩ := ih rest.length (by omega) (offset + entry.whole.length) rest rfl
      exact ⟨_, .take hbegins hrest⟩
    obtain ⟨line, hline, rfl | ⟨rest, rfl⟩⟩ := exists_line text
    · by_cases hheading : HasHeading text
      · obtain ⟨entry, rest, hbegins⟩ := hheading.exists_begins hline []
        rw [List.append_nil] at hbegins
        exact htake hbegins
      · exact ⟨[], .last hline hheading⟩
    · by_cases hheading : HasHeading line
      · obtain ⟨entry, rest, hbegins⟩ := hheading.exists_begins hline _
        exact htake hbegins
      · rw [List.length_append, List.length_cons] at hlength
        obtain ⟨entries, hrest⟩ :=
          ih rest.length (by omega) (offset + line.length + 1) rest rfl
        exact ⟨entries, .pass hline hheading hrest⟩

/-- An entry with its offset, as the token that a scan finds. -/
def token (listed : Entry × Nat) : Entry × Extent :=
  (listed.1, ⟨listed.2, listed.1.whole.length⟩)

theorem token_injective : Function.Injective token := by
  rintro ⟨entry, offset⟩ ⟨entry', offset'⟩ h
  simp only [token, Prod.mk.injEq, Extent.mk.injEq] at h
  rw [h.1, h.2.1]

/-- A line without a heading is passed over by a scan, character by character. -/
theorem scan_of_line {report line behind : Text} {offset middle : Nat}
    (hreport : report.drop offset = line ++ behind) (hline : '\n' ∉ line)
    (hnone : ¬ HasHeading line) (hbehind : ∀ c ∈ behind.head?, c = '\n')
    (hmiddle : middle = offset + line.length + 1) (hlimit : middle ≤ report.length + 1)
    {tokens : List (Entry × Extent)} (h : Scan (entryAt? report) report.length middle tokens) :
    Scan (entryAt? report) report.length offset tokens := by
  refine Scan.pass (by omega) hlimit ?_ h
  intro k hle hlt
  have hdrop : report.drop k = (line ++ behind).drop (k - offset) := by
    rw [← hreport, List.drop_drop, Nat.add_sub_cancel' hle]
  rw [entryAt?_eq_none_iff, hdrop]
  exact lastHeading?_drop_eq_none hline hnone hbehind (by omega)

/-- A listing finds what a scan finds at every character. -/
theorem Listing.scan {report text : Text} {offset : Nat} {entries : List (Entry × Nat)}
    (h : Listing offset text entries) (hreport : report.drop offset = text)
    (hoffset : offset + text.length = report.length) :
    Scan (entryAt? report) report.length offset (entries.map token) := by
  induction h with
  | @last offset line hline hnone =>
    rw [← List.append_nil line] at hreport
    exact scan_of_line hreport hline hnone (by simp) rfl (by omega) (.stop (by omega))
  | @pass offset line rest entries hline hnone hrest ih =>
    rw [List.length_append, List.length_cons] at hoffset
    refine scan_of_line hreport hline hnone (by simp) rfl (by omega) (ih ?_ (by omega))
    rw [Nat.add_assoc, ← List.drop_drop, hreport]
    simp
  | @take offset text rest entry entries hbegins hrest ih =>
    have hentry : entryAt? report offset = some (token (entry, offset)) := by
      rw [entryAt?, hreport, entryOf?_eq_some_iff.mpr ⟨rest, hbegins⟩]
      rfl
    rw [hbegins.text_eq, List.length_append] at hoffset
    refine .take (by omega) hentry (ih ?_ (by omega))
    rw [← List.drop_drop, hreport, hbegins.text_eq, List.drop_left]

/-- A report has one listing, which a scan follows. -/
theorem exists_listing_scan (report : Text) :
    ∃ entries, (∀ other, Listing 0 report other ↔ other = entries) ∧
      Scan (entryAt? report) report.length 0 (entries.map token) := by
  obtain ⟨entries, hlisting⟩ := exists_listing 0 report
  have hscan {other : List (Entry × Nat)} (h : Listing 0 report other) :
      Scan (entryAt? report) report.length 0 (other.map token) :=
    h.scan rfl (Nat.zero_add _)
  refine ⟨entries, fun other => ⟨fun hother => ?_, fun heq => heq ▸ hlisting⟩, hscan hlisting⟩
  exact token_injective.list_map ((hscan hother).unique (hscan hlisting))

/-- The match that takes an entry that a scan finds, as the token of a scan for matches. -/
def taken (report : Text) (token : Entry × Extent) : Found × Extent :=
  (token.1.found report token.2.start, token.2)

/-- The matches of the pattern take the entries that a scan finds. -/
theorem findAll_of_scan {report : Text} {entries : List (Entry × Nat)}
    (h : Scan (entryAt? report) report.length 0 (entries.map token)) :
    patternNode.findAll report = entries.map fun listed => listed.1.found report listed.2 := by
  have hheads : ∀ offset ≤ report.length, Found.head patternNode.matchAt? report withExtent offset =
      (entryAt? report offset).map (taken report) := by
    intro offset _
    rw [head_patternNode]
    refine Option.map_congr fun token htoken => ?_
    rw [taken, (entryAt?_start offset token htoken).1]
  have hstop : ∀ token, (taken report token).2.stop = token.2.stop := fun _ => rfl
  have hmatches := (h.map (taken report) hstop).congr fun offset hle => (hheads offset hle).symm
  have hfounds := (scan_findAll_patternNode report).unique hmatches
  rw [← map_fst_withExtent (patternNode.findAll report), hfounds, List.map_map, List.map_map]
  rfl

/-! ## Positive counts -/

/-- Digits are read as the number they stand for, if this is a positive count. -/
theorem positive?_eq {digits : Text} (hne : digits ≠ [])
    (hdigits : ∀ c ∈ digits, c.isDigit = true) :
    positive? digits =
      if 0 < Nat.ofDigitChars 10 digits 0 ∧ Nat.ofDigitChars 10 digits 0 < countLimit then
        some (Nat.ofDigitChars 10 digits 0)
      else none := by
  split_ifs with hcount
  · exact (positive?_eq_some_iff hne hdigits).mpr ⟨rfl, hcount⟩
  · rw [Option.eq_none_iff_forall_ne_some]
    intro n hn
    obtain ⟨rfl, hpositive⟩ := (positive?_eq_some_iff hne hdigits).mp hn
    exact hcount hpositive

namespace Entry

/-- The row of an entry. -/
def row (entry : Entry) : Nat :=
  Nat.ofDigitChars 10 entry.heading.row 0

/-- The column of an entry. -/
def column (entry : Entry) : Nat :=
  Nat.ofDigitChars 10 entry.heading.column 0

/-- The row and the column are positive counts. -/
def Counts (entry : Entry) : Prop :=
  (0 < entry.row ∧ entry.row < countLimit) ∧ 0 < entry.column ∧ entry.column < countLimit

instance (entry : Entry) : Decidable entry.Counts :=
  inferInstanceAs (Decidable (_ ∧ _))

/-- What an entry at an offset says. -/
def diagnostic (entry : Entry) (offset : Nat) : Diagnostic :=
  ⟨entry.file, entry.row, entry.column, entry.heading.severity, entry.message,
    entry.extent offset, entry.link offset⟩

/-- An entry makes a diagnostic exactly if its row and its column are positive counts. -/
theorem diagnostic?_eq {entry : Entry} (h : entry.heading.WellFormed) (offset : Nat) :
    entry.diagnostic? offset = if entry.Counts then some (entry.diagnostic offset) else none := by
  have hrow : positive? entry.heading.row =
      if 0 < entry.row ∧ entry.row < countLimit then some entry.row else none :=
    positive?_eq h.row_ne h.row_digits
  have hcolumn : positive? entry.heading.column =
      if 0 < entry.column ∧ entry.column < countLimit then some entry.column else none :=
    positive?_eq h.column_ne h.column_digits
  rw [diagnostic?, hrow, hcolumn]
  by_cases hcounts : entry.Counts
  · rw [if_pos hcounts, if_pos hcounts.1, if_pos hcounts.2]
    rfl
  · rw [if_neg hcounts]
    rcases not_and_or.mp hcounts with hnone | hnone
    · rw [if_neg hnone]
      rfl
    · rw [if_neg hnone]
      split_ifs <;> rfl

end Entry

/-- The diagnostics are those of the entries with positive counts. -/
theorem parseAll_of_scan {report : Text} {entries : List (Entry × Nat)}
    (h : Scan (entryAt? report) report.length 0 (entries.map token)) :
    parseAll report = (entries.filter fun listed => listed.1.Counts).map
      fun listed => listed.1.diagnostic listed.2 := by
  obtain ⟨tokens, hscan, hparse⟩ := parseAll_eq report
  rw [hparse, hscan.unique h, List.filterMap_map, ← List.filterMap_eq_map,
    List.filterMap_filter]
  refine List.filterMap_congr fun listed hmem => ?_
  obtain ⟨offset, -, hentry⟩ := h.exists_head (token listed) (List.mem_map_of_mem hmem)
  have hwell := (entryAt?_sound hentry).1.heading_wellFormed
  rw [Function.comp_apply, diagnosticOf?, Entry.diagnostic?_eq hwell]
  simp only [decide_eq_true_eq]
  rfl

/-! ## Lines with a heading -/

/-- A line that begins at an offset lies inside the message of an entry before it. -/
structure Entry.Covers (entry : Entry) (offset : Nat) (start : Nat) (line : Text) : Prop where
  before : offset < start
  start_le : (entry.messageExtent offset).start ≤ start
  /-- A carriage return at the end of the line may belong to a line break behind the message. -/
  stop_le : ∃ content, (line = content ∨ line = content ++ ['\r']) ∧
    start + content.length ≤ (entry.messageExtent offset).stop

theorem HasHeading.colon_mem {line : Text} (h : HasHeading line) : ':' ∈ line := by
  obtain ⟨heading, -, hinside⟩ := h
  exact hinside.subset (by simp [Heading.text])

/-- Before the line feed of a line break stands at most a carriage return. -/
theorem eq_of_prefix_lineBreak {lineBreak rest line : Text} (hbreak : IsLineBreak lineBreak)
    (hbegins : line <+: lineBreak ++ rest) (hline : '\n' ∉ line) : line = [] ∨ line = ['\r'] := by
  rcases hbreak with rfl | rfl
  · rcases line with _ | ⟨c, line⟩
    · exact Or.inl rfl
    · obtain ⟨rfl, -⟩ := List.cons_prefix_cons.mp hbegins
      exact absurd List.mem_cons_self hline
  · rcases line with _ | ⟨c, _ | ⟨d, line⟩⟩
    · exact Or.inl rfl
    · obtain ⟨rfl, -⟩ := List.cons_prefix_cons.mp hbegins
      exact Or.inr rfl
    · obtain ⟨-, hrest⟩ := List.cons_prefix_cons.mp hbegins
      obtain ⟨rfl, -⟩ := List.cons_prefix_cons.mp hrest
      simp at hline

/-- A line that goes on where a message ends goes on with at most a carriage return. -/
theorem Ending.eq_of_prefix {ending rest line : Text} (h : Ending ending rest)
    (hbegins : line <+: ending ++ rest) (hline : '\n' ∉ line) : line = [] ∨ line = ['\r'] := by
  cases h with
  | blank hfirst hsecond =>
    rw [List.append_assoc] at hbegins
    exact eq_of_prefix_lineBreak hfirst hbegins hline
  | last hlast =>
    simp only [lastBreaks, List.mem_cons, List.not_mem_nil, or_false] at hlast
    rcases hlast with rfl | rfl | rfl | rfl
    · exact Or.inl (List.prefix_nil.mp hbegins)
    · rcases List.prefix_cons_iff.mp hbegins with hnil | ⟨tail, hcons, htail⟩
      · exact Or.inl hnil
      · rw [hcons, List.prefix_nil.mp htail]
        exact Or.inr rfl
    · exact eq_of_prefix_lineBreak (Or.inl rfl) hbegins hline
    · exact eq_of_prefix_lineBreak (Or.inr rfl) hbegins hline

/-- A line that begins with another one ends before the line feed behind that one. -/
theorem prefix_of_line {line behind first rest : Text} (hline : '\n' ∉ line)
    (h : line ++ behind = first ++ '\n' :: rest) : line <+: first := by
  rcases List.append_eq_append_iff.mp h with ⟨part, hfirst, -⟩ | ⟨part, hpart, hrest⟩
  · exact ⟨part, hfirst.symm⟩
  · cases part with
    | nil => exact ⟨[], by rw [hpart, List.append_nil, List.append_nil]⟩
    | cons c part =>
      obtain ⟨rfl, -⟩ := List.cons.inj hrest
      exact absurd (by simp [hpart]) hline

/-- What ends a message consists of line breaks, so a line that begins in it holds no colon. -/
theorem Ending.colon_not_mem {ending rest before line behind : Text} (h : Ending ending rest)
    (htext : ending ++ rest = before ++ (line ++ behind)) (hlt : before.length < ending.length)
    (hline : '\n' ∉ line) : ':' ∉ line := by
  cases h with
  | @blank first second hfirst hsecond =>
    obtain ⟨front, hfront, hcolon⟩ : ∃ front, first ++ second = front ++ ['\n'] ∧ ':' ∉ front := by
      rcases hfirst with rfl | rfl <;> rcases hsecond with rfl | rfl
      · exact ⟨['\n'], rfl, by decide⟩
      · exact ⟨['\n', '\r'], rfl, by decide⟩
      · exact ⟨['\r', '\n'], rfl, by decide⟩
      · exact ⟨['\r', '\n', '\r'], rfl, by decide⟩
    rw [hfront, List.length_append, List.length_singleton] at hlt
    rw [hfront, List.append_assoc] at htext
    -- the last line feed is not passed
    obtain ⟨later, rfl, hlater⟩ : ∃ later, front = before ++ later ∧
        line ++ behind = later ++ '\n' :: rest := by
      rcases List.append_eq_append_iff.mp htext with ⟨part, hbefore, hpart⟩ | hinside
      · have hnil : part = [] := by
          rw [hbefore, List.length_append] at hlt
          exact List.length_eq_zero_iff.mp (by omega)
        rw [hnil, List.append_nil] at hbefore
        rw [hnil] at hpart
        exact ⟨[], by rw [hbefore, List.append_nil], hpart.symm⟩
      · exact hinside
    have hbegins := prefix_of_line hline hlater
    exact fun hmem => hcolon (List.mem_append_right before (hbegins.subset hmem))
  | last hlast =>
    intro hmem
    have hcolon : ':' ∈ ending := by
      rw [← List.append_nil ending, htext]
      simp [hmem]
    simp only [lastBreaks, List.mem_cons, List.not_mem_nil, or_false] at hlast
    rcases hlast with rfl | rfl | rfl | rfl <;> simp at hcolon

/-- Behind its first line, the lines of an entry that hold a heading lie inside its message. -/
theorem Entry.Begins.covers {entry : Entry} {text rest before line behind : Text}
    (h : entry.Begins text rest) (htext : text = before ++ (line ++ behind)) (hne : before ≠ [])
    (hbefore : before.EndsLine) (hlt : before.length < entry.whole.length) (hline : '\n' ∉ line)
    (hheading : HasHeading line) (offset : Nat) :
    entry.Covers offset (offset + before.length) line := by
  have hlast : before.getLast? = some '\n' := (Text.endsLine_iff.mp hbefore).resolve_left hne
  have hfirst : '\n' ∉ entry.file ++ entry.heading.text := by
    rw [List.mem_append, not_or]
    exact ⟨h.file_line, h.wellFormed.line⟩
  have hsplit : entry.file ++ entry.heading.text ++ (entry.message ++ (entry.ending ++ rest)) =
      before ++ (line ++ behind) := by
    rw [← htext, h.eq_append, List.append_assoc]
  -- the first line goes on behind the heading
  obtain ⟨more, rfl, hmore⟩ : ∃ more, before = entry.file ++ entry.heading.text ++ more ∧
      entry.message ++ (entry.ending ++ rest) = more ++ (line ++ behind) := by
    rcases List.append_eq_append_iff.mp hsplit with hinside | ⟨part, hpart, -⟩
    · exact hinside
    · have hmem : '\n' ∈ before := List.mem_of_getLast? hlast
      exact absurd (by rw [hpart]; exact List.mem_append_left part hmem) hfirst
  have hstart : (entry.messageExtent offset).start =
      offset + (entry.file ++ entry.heading.text).length := by
    rw [List.length_append, ← Nat.add_assoc]
    rfl
  have hstop : (entry.messageExtent offset).stop =
      offset + (entry.file ++ entry.heading.text).length + entry.message.length := by
    rw [← hstart]
    rfl
  have hpos : 0 < (entry.file ++ entry.heading.text ++ more).length :=
    List.length_pos_iff.mpr hne
  rw [Entry.length_whole, Entry.length_text, ← List.length_append] at hlt
  rw [List.length_append] at hlt hpos ⊢
  refine ⟨by omega, by omega, ?_⟩
  rw [hstop]
  rcases List.append_eq_append_iff.mp hmore with ⟨part, rfl, hpart⟩ | ⟨later, hmessage, hlater⟩
  · -- the line begins in what ends the message
    simp only [List.length_append] at hlt
    have hcolon := hheading.colon_mem
    cases part with
    | nil =>
      rw [List.nil_append] at hpart
      rcases h.ending.eq_of_prefix (hpart ▸ List.prefix_append line behind) hline with rfl | rfl
      · cases hcolon
      · simp at hcolon
    | cons c part => exact absurd hcolon (h.ending.colon_not_mem hpart (by omega) hline)
  · have hlength := congrArg List.length hmessage
    rw [List.length_append] at hlength
    rcases List.append_eq_append_iff.mp hlater with ⟨part, hpart, -⟩ | ⟨part, hpart, hend⟩
    · have hle := congrArg List.length hpart
      rw [List.length_append] at hle
      exact ⟨line, Or.inl rfl, by omega⟩
    · have hnotmem : '\n' ∉ part := fun hmem => hline (by simp [hpart, hmem])
      rcases h.ending.eq_of_prefix (hend ▸ List.prefix_append part behind) hnotmem with rfl | rfl
      · exact ⟨later, Or.inl (by rw [hpart, List.append_nil]), by omega⟩
      · exact ⟨later, Or.inr hpart, by omega⟩

theorem HasHeading.mono {line other : Text} (h : HasHeading line) (hinside : line <:+: other) :
    HasHeading other := by
  obtain ⟨heading, hwell, hheading⟩ := h
  exact ⟨heading, hwell, hheading.trans hinside⟩

/-- A line that holds a heading begins an entry of the listing, or an earlier one covers it. -/
theorem Listing.exists_of_hasHeading {offset : Nat} {text : Text} {entries : List (Entry × Nat)}
    (h : Listing offset text entries) {before line behind : Text}
    (htext : text = before ++ (line ++ behind)) (hbefore : before.EndsLine) (hline : '\n' ∉ line)
    (hheading : HasHeading line) :
    ∃ listed ∈ entries, listed.2 = offset + before.length ∨
      listed.1.Covers listed.2 (offset + before.length) line := by
  induction h generalizing before with
  | @last offset last hlast hnone =>
    obtain rfl : before = [] :=
      hbefore.eq_nil fun hmem => hlast (by rw [htext]; exact List.mem_append_left _ hmem)
    exact absurd (hheading.mono ⟨[], behind, htext.symm⟩) hnone
  | @pass offset first rest entries hfirst hnone hrest ih =>
    by_cases hnil : before = []
    · rw [hnil, List.nil_append] at htext
      exact absurd (hheading.mono (prefix_of_line hline htext.symm).isInfix) hnone
    · obtain ⟨later, rfl, hlater⟩ : ∃ later, before = first ++ ['\n'] ++ later ∧
          rest = later ++ (line ++ behind) := by
        rcases List.append_eq_append_iff.mp htext with ⟨part, hpart, hlater⟩ | ⟨part, hpart, -⟩
        · cases part with
          | nil =>
            rw [List.append_nil] at hpart
            exact absurd (hbefore.eq_nil (hpart ▸ hfirst)) hnil
          | cons c part =>
            obtain ⟨rfl, hrest⟩ := List.cons.inj hlater
            exact ⟨part, by rw [hpart, List.append_assoc]; rfl, hrest⟩
        · have hclear : '\n' ∉ before := fun hmem => hfirst (by simp [hpart, hmem])
          exact absurd (hbefore.eq_nil hclear) hnil
      obtain ⟨listed, hmem, hlisted⟩ := ih hlater hbefore.right
      rw [List.length_append, List.length_append, List.length_singleton, ← Nat.add_assoc,
        ← Nat.add_assoc]
      exact ⟨listed, hmem, hlisted⟩
  | @take offset text rest entry entries hbegins hrest ih =>
    by_cases hnil : before = []
    · exact ⟨(entry, offset), List.mem_cons_self, Or.inl (by rw [hnil]; rfl)⟩
    · by_cases hlt : before.length < entry.whole.length
      · have hcovers := hbegins.covers htext hnil hbefore hlt hline hheading offset
        exact ⟨(entry, offset), List.mem_cons_self, Or.inr hcovers⟩
      · obtain ⟨later, rfl, hlater⟩ : ∃ later, before = entry.whole ++ later ∧
            rest = later ++ (line ++ behind) := by
          rw [hbegins.text_eq] at htext
          rcases List.append_eq_append_iff.mp htext with hbehind | ⟨part, hpart, hlater⟩
          · exact hbehind
          · rw [hpart, List.length_append] at hlt
            obtain rfl : part = [] := List.length_eq_zero_iff.mp (by omega)
            rw [List.append_nil] at hpart
            exact ⟨[], by rw [hpart, List.append_nil], hlater.symm⟩
        obtain ⟨listed, hmem, hlisted⟩ := ih hlater hbefore.right
        rw [List.length_append, ← Nat.add_assoc]
        exact ⟨listed, List.mem_cons_of_mem _ hmem, hlisted⟩

/--
A report has one listing.  The matches of the pattern take its entries, one behind the other, and
the diagnostics are those of the entries whose row and column are positive counts.  Every line
with a heading begins an entry, or it lies inside the message of an entry before it.
-/
theorem parseAll_listing (report : Text) :
    ∃ entries, (∀ other, Listing 0 report other ↔ other = entries) ∧
      patternNode.findAll report =
        entries.map (fun listed => listed.1.found report listed.2) ∧
      parseAll report = (entries.filter fun listed => listed.1.Counts).map
        (fun listed => listed.1.diagnostic listed.2) ∧
      ∀ before line behind, report = before ++ (line ++ behind) → before.EndsLine →
        '\n' ∉ line → HasHeading line → ∃ listed ∈ entries,
          listed.2 = before.length ∨ listed.1.Covers listed.2 before.length line := by
  obtain ⟨entries, hlisting, hscan⟩ := exists_listing_scan report
  refine ⟨entries, hlisting, findAll_of_scan hscan, parseAll_of_scan hscan, ?_⟩
  intro before line behind hreport hbefore hline hheading
  have hcovered := Listing.exists_of_hasHeading ((hlisting entries).mpr rfl) hreport hbefore hline
    hheading
  rwa [Nat.zero_add] at hcovered

end Diagnostic

end ScratchEditor

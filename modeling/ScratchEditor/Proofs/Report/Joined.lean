import ScratchEditor.Proofs.Report.Records

/-!
# Reports joined by a blank line

A blank line ends a message, so a report is read in the same way whatever follows it behind a
blank line, and what follows is read as if it stood alone.  At the end of the first report this
takes some care: a message that goes on up to there, or up to a line break there, now ends before
the blank line and the line break together, and the scan goes on behind the first two of these.
A carriage return there would become a part of a line break, so the report must not end in one.

Main definitions:

- `Diagnostic.shift`: a diagnostic that stands further on.
- `Diagnostic.Resumes`: how much is taken of a text when a blank line follows it.

Main results:

- `Diagnostic.splitMessage_append_blank`: a message ends where it ended without a blank line.
- `Diagnostic.entryOf?_append_blank`: the entry at the beginning of a text is found again.
- `Diagnostic.scan_append_blank`: a scan of the first report goes on with one of the second.
- `Diagnostic.parseAll_append_blank`: joined reports are read one behind the other.
-/

namespace ScratchEditor

namespace Diagnostic

/-- The same diagnostic so many characters further on. -/
def shift (diagnostic : Diagnostic) (distance : Nat) : Diagnostic :=
  { diagnostic with
    extent := diagnostic.extent.shift distance
    link := diagnostic.link.shift distance }

/-! ## Headings before a line break -/

/-- What does not hold a character is a beginning only of what stands before it. -/
theorem prefix_append_cons_iff {part text rest : Text} {c : Char} (hc : c ∉ part) :
    part <+: text ++ c :: rest ↔ part <+: text := by
  refine ⟨fun h => ?_, fun h => h.trans (List.prefix_append text _)⟩
  rcases List.prefix_or_prefix_of_prefix h (List.prefix_append text _) with hinside | ⟨more, rfl⟩
  · exact hinside
  · cases more with
    | nil => rw [List.append_nil]
    | cons d more =>
      obtain ⟨rfl, -⟩ := List.cons_prefix_cons.mp ((List.prefix_append_right_inj text).mp h)
      exact absurd (by simp) hc

/-- A heading ends on the line that it begins on. -/
theorem heading?_append_newline (text rest : Text) :
    heading? (text ++ '\n' :: rest) = heading? text := by
  ext heading
  rw [heading?_eq_some_iff, heading?_eq_some_iff]
  exact and_congr_right fun hwell => prefix_append_cons_iff hwell.line

/-- The last heading of a line is found before the line break. -/
theorem lastHeading?_append_newline (text rest : Text) :
    lastHeading? (text ++ '\n' :: rest) = lastHeading? text := by
  induction text with
  | nil =>
    rw [List.nil_append, lastHeading?_cons_of_none (heading?_eq_none (by decide)), if_pos rfl]
    rfl
  | cons c text ih =>
    have hhere := heading?_append_newline (c :: text) rest
    rw [List.cons_append] at hhere ⊢
    rw [lastHeading?, ih, hhere, lastHeading?]

/-! ## Endings before a blank line -/

/-- A tail of a text ends as the text does. -/
theorem getLast?_ne_of_suffix {tail text : Text} {c : Char} (htail : tail <:+ text)
    (hlast : text.getLast? ≠ some c) : tail.getLast? ≠ some c := by
  intro htailLast
  obtain ⟨before, rfl⟩ := htail
  rw [List.getLast?_append, htailLast] at hlast
  exact hlast rfl

/-- The beginnings of a blank line are line breaks, but for those that end in a carriage return. -/
theorem mem_lastBreaks_of_prefix {part first second : Text} (hfirst : IsLineBreak first)
    (hsecond : IsLineBreak second) (hpart : part <+: first ++ second)
    (hreturn : part.getLast? ≠ some '\r') : part ∈ lastBreaks ∨ part = first ++ second := by
  have hall : ∀ first ∈ [['\n'], ['\r', '\n']], ∀ second ∈ [['\n'], ['\r', '\n']],
      ∀ part ∈ (first ++ second).inits, part.getLast? ≠ some '\r' →
        part ∈ lastBreaks ∨ part = first ++ second := by
    decide
  refine hall first ?_ second ?_ part ((List.mem_inits _ _).mpr hpart) hreturn
  · rcases hfirst with rfl | rfl <;> simp
  · rcases hsecond with rfl | rfl <;> simp

/-- Where no ending is, there is none when a blank line follows. -/
theorem ending?_append_blank_eq_none {text : Text} (hne : text ≠ [])
    (hreturn : text.getLast? ≠ some '\r') (h : ending? text = none) (rest : Text) :
    ending? (text ++ '\n' :: '\n' :: rest) = none := by
  rw [Option.eq_none_iff_forall_ne_some]
  intro ending hending
  obtain ⟨hbegins, ⟨first, second, hfirst, hsecond, rfl⟩ | ⟨hlast, rfl⟩⟩ := ending?_sound hending
  · rcases List.prefix_or_prefix_of_prefix hbegins (List.prefix_append text _) with
      ⟨behind, rfl⟩ | hpart
    · rw [ending?_blankLine hfirst hsecond] at h
      cases h
    · -- The text is a part of the blank line, so it would be an ending itself.
      rcases mem_lastBreaks_of_prefix hfirst hsecond hpart hreturn with hmem | rfl
      · rw [ending?, if_pos hmem, Option.or_eq_none_iff] at h
        cases h.2
      · rw [← List.append_nil (first ++ second), ending?_blankLine hfirst hsecond] at h
        cases h
  · have hshort : ∀ lineBreak ∈ lastBreaks, lineBreak.length ≤ 2 := by decide
    have hlong := hshort _ hlast
    have hpos := List.length_pos_of_ne_nil hne
    simp only [List.length_append, List.length_cons] at hlong
    omega

/-! ## What is taken of a text -/

/--
What is taken of a text when a blank line follows: the same as without it, or, if that is the
whole text, all of it with one or both of the line breaks.
-/
def Resumes (text taken taken' : Text) : Prop :=
  taken' = taken ∨
    taken = text ∧ text.length < taken'.length ∧ taken'.length ≤ text.length + 2

/-- What stands in front of a text is taken either way. -/
theorem Resumes.append_left {text taken taken' : Text} (h : Resumes text taken taken')
    (before : Text) : Resumes (before ++ text) (before ++ taken) (before ++ taken') := by
  rcases h with rfl | ⟨rfl, hlt, hle⟩
  · exact Or.inl rfl
  · refine Or.inr ⟨rfl, ?_, ?_⟩
    · rw [List.length_append, List.length_append]
      omega
    · rw [List.length_append, List.length_append]
      omega

/-- An ending is an ending when a blank line follows; one of a line break takes one more. -/
theorem ending?_append_blank {text ending : Text} (hreturn : text.getLast? ≠ some '\r')
    (h : ending? text = some ending) (rest : Text) :
    ∃ ending', ending? (text ++ '\n' :: '\n' :: rest) = some ending' ∧
      Resumes text ending ending' := by
  obtain ⟨⟨behind, hbehind⟩, ⟨first, second, hfirst, hsecond, rfl⟩ | ⟨hlast, rfl⟩⟩ :=
    ending?_sound h
  · refine ⟨first ++ second, ?_, Or.inl rfl⟩
    rw [← hbehind, List.append_assoc, ending?_blankLine hfirst hsecond]
  · simp only [lastBreaks, List.mem_cons, List.not_mem_nil, or_false] at hlast
    rcases hlast with rfl | rfl | rfl | rfl
    · exact ⟨['\n', '\n'], rfl, Or.inr ⟨rfl, by decide, by decide⟩⟩
    · exact absurd rfl hreturn
    · exact ⟨['\n', '\n'], rfl, Or.inr ⟨rfl, by decide, by decide⟩⟩
    · exact ⟨['\r', '\n', '\n'], rfl, Or.inr ⟨rfl, by decide, by decide⟩⟩

/-- A message ends where it ended without a blank line. -/
theorem splitMessage_append_blank {text : Text} (hreturn : text.getLast? ≠ some '\r')
    (rest : Text) :
    ∃ ending, splitMessage (text ++ '\n' :: '\n' :: rest) = ((splitMessage text).1, ending) ∧
      Resumes text ((splitMessage text).1 ++ (splitMessage text).2)
        ((splitMessage text).1 ++ ending) := by
  induction text with
  | nil => exact ⟨['\n', '\n'], rfl, Or.inr ⟨rfl, by decide, by decide⟩⟩
  | cons c text ih =>
    cases hending : ending? (c :: text) with
    | some ending =>
      obtain ⟨ending', hjoined, hresumes⟩ := ending?_append_blank hreturn hending rest
      refine ⟨ending', ?_, ?_⟩
      · rw [List.cons_append] at hjoined ⊢
        rw [splitMessage, hjoined, splitMessage, hending]
      · rw [splitMessage, hending]
        exact hresumes
    | none =>
      have hjoined := ending?_append_blank_eq_none (List.cons_ne_nil c text) hreturn hending rest
      obtain ⟨ending, hsplit, hresumes⟩ :=
        ih (getLast?_ne_of_suffix (List.suffix_cons c text) hreturn)
      refine ⟨ending, ?_, ?_⟩
      · rw [List.cons_append] at hjoined ⊢
        rw [splitMessage, hjoined, hsplit, splitMessage, hending]
      · rw [splitMessage, hending]
        exact hresumes.append_left [c]

/-! ## Entries before a blank line -/

/-- The entry with something else for its ending. -/
def Entry.withEnding (entry : Entry) (ending : Text) : Entry :=
  { entry with ending := ending }

/-- A diagnostic does not tell what its message ends before. -/
theorem Entry.diagnostic?_withEnding (entry : Entry) (ending : Text) (offset : Nat) :
    (entry.withEnding ending).diagnostic? offset = entry.diagnostic? offset :=
  rfl

/-- A text without an entry has none when a blank line follows it. -/
theorem entryOf?_append_blank_eq_none {text : Text} (h : entryOf? text = none) (rest : Text) :
    entryOf? (text ++ '\n' :: '\n' :: rest) = none := by
  rw [entryOf?, Option.map_eq_none_iff] at h ⊢
  rw [lastHeading?_append_newline, h]

/-- An entry at the beginning of a text is found when a blank line follows the text. -/
theorem entryOf?_append_blank {text : Text} {entry : Entry} (hreturn : text.getLast? ≠ some '\r')
    (h : entryOf? text = some entry) (rest : Text) :
    ∃ ending, entryOf? (text ++ '\n' :: '\n' :: rest) = some (entry.withEnding ending) ∧
      Resumes text entry.whole (entry.withEnding ending).whole := by
  obtain ⟨⟨file, heading⟩, hlast, rfl⟩ := Option.map_eq_some_iff.mp h
  obtain ⟨-, -, behind, rfl⟩ := lastHeading?_sound hlast
  obtain ⟨ending, hsplit, hresumes⟩ :=
    splitMessage_append_blank (getLast?_ne_of_suffix (List.suffix_append _ behind) hreturn) rest
  have hdrop (later : Text) : (file ++ heading.text ++ later).drop
      (file.length + heading.text.length) = later := by
    rw [← List.length_append, List.drop_left]
  refine ⟨ending, ?_, ?_⟩
  · rw [entryOf?, lastHeading?_append_newline, hlast, Option.map_some, List.append_assoc _ behind]
    dsimp only
    rw [hdrop, hdrop, hsplit]
    rfl
  · dsimp only
    rw [hdrop]
    simp only [Entry.withEnding, Entry.whole, Entry.text, List.append_assoc (file ++ heading.text)]
    exact hresumes.append_left (file ++ heading.text)

/-! ## Scanning joined reports -/

/-- Behind some text a report has its entries further on. -/
theorem entryAt?_append_left (before report : Text) (offset : Nat) :
    entryAt? (before ++ report) (before.length + offset) =
      (entryAt? report offset).map fun token => (token.1, token.2.shift before.length) := by
  rw [entryAt?, List.drop_length_add_append, entryAt?, Option.map_map, Nat.add_comm]
  rfl

/-- An entry that stands further on makes a diagnostic that does. -/
theorem Entry.diagnostic?_add (entry : Entry) (offset distance : Nat) :
    entry.diagnostic? (offset + distance) =
      (entry.diagnostic? offset).map (·.shift distance) := by
  have hlink : entry.link (offset + distance) = (entry.link offset).shift distance := by
    simp only [Entry.link, Extent.shift, Extent.mk.injEq, and_true]
    omega
  unfold Entry.diagnostic?
  rw [hlink]
  cases positive? entry.heading.row with
  | none => rfl
  | some row =>
    cases positive? entry.heading.column with
    | none => rfl
    | some column => rfl

/-- At a line break no entry begins. -/
theorem entryAt?_eq_none_of_newline {report : Text} {offset : Nat}
    (h : report[offset]? = some '\n') : entryAt? report offset = none := by
  obtain ⟨hlt, hnewline⟩ := List.getElem?_eq_some_iff.mp h
  have hnone : lastHeading? ('\n' :: report.drop (offset + 1)) = none :=
    lastHeading?_append_newline [] _
  rw [entryAt?, entryOf?, List.drop_eq_getElem_cons hlt, hnewline, hnone]
  rfl

/-- From the line breaks of a blank line on, what stands behind them is found. -/
theorem scan_blank {a b : Text} {tokens : List (Entry × Extent)}
    (h : Scan (entryAt? b) b.length 0 tokens) {offset : Nat} (hle : a.length ≤ offset)
    (hlast : offset ≤ a.length + 2) :
    Scan (entryAt? (a ++ '\n' :: '\n' :: b)) (a ++ '\n' :: '\n' :: b).length offset
      (tokens.map fun token => (token.1, token.2.shift (a.length + 2))) := by
  have hlength : (a ++ '\n' :: '\n' :: b).length = a.length + 2 + b.length := by
    simp only [List.length_append, List.length_cons]
    omega
  induction hlast using Nat.decreasingInduction with
  | self =>
    have hfront : a ++ '\n' :: '\n' :: b = a ++ ['\n', '\n'] ++ b :=
      (List.append_assoc a ['\n', '\n'] b).symm
    have hbehind := h.shift fun k _ => entryAt?_append_left (a ++ ['\n', '\n']) b k
    have hfrontLength : (a ++ ['\n', '\n']).length = a.length + 2 := List.length_append
    rw [← hfront, hfrontLength, ← hlength] at hbehind
    exact hbehind
  | of_succ offset hlt ih =>
    have hnewline : (a ++ '\n' :: '\n' :: b)[offset]? = some '\n' := by
      obtain rfl | rfl : offset = a.length ∨ offset = a.length + 1 := by omega
      · simp
      · simp
    exact .skip (by omega) (entryAt?_eq_none_of_newline hnewline) (ih (Nat.le_succ_of_le hle))

/-- A scan of a report finds the same diagnostics and goes on behind the blank line. -/
theorem scan_append_blank {a b : Text} (hreturn : a.getLast? ≠ some '\r')
    {later : List (Entry × Extent)} (hlater : Scan (entryAt? b) b.length 0 later) {offset : Nat}
    {tokens : List (Entry × Extent)} (h : Scan (entryAt? a) a.length offset tokens)
    (hoffset : offset ≤ a.length + 1) :
    ∃ tokens', Scan (entryAt? (a ++ '\n' :: '\n' :: b)) (a ++ '\n' :: '\n' :: b).length offset
        (tokens' ++ later.map fun token => (token.1, token.2.shift (a.length + 2))) ∧
      tokens'.filterMap diagnosticOf? = tokens.filterMap diagnosticOf? := by
  have hwithin {offset : Nat} (hle : offset ≤ a.length) :
      offset ≤ (a ++ '\n' :: '\n' :: b).length :=
    Nat.le_trans hle (List.prefix_append a _).length_le
  have hdrop {offset : Nat} (hle : offset ≤ a.length) :
      (a ++ '\n' :: '\n' :: b).drop offset = a.drop offset ++ '\n' :: '\n' :: b :=
    List.drop_append_of_le_length hle
  induction h with
  | stop hlimit => exact ⟨[], scan_blank hlater (by omega) (by omega), rfl⟩
  | @skip offset tokens hlimit hhead hnext ih =>
    obtain ⟨tokens', hscan, hsame⟩ := ih (Nat.succ_le_succ hlimit)
    rw [entryAt?, Option.map_eq_none_iff] at hhead
    refine ⟨tokens', .skip (hwithin hlimit) ?_ hscan, hsame⟩
    rw [entryAt?, hdrop hlimit, entryOf?_append_blank_eq_none hhead, Option.map_none]
  | @take offset token tokens hlimit hhead hnext ih =>
    obtain ⟨entry, hentry, rfl⟩ := Option.map_eq_some_iff.mp hhead
    have hbegins := (entryOf?_sound hentry).whole_begins.length_le
    rw [List.length_drop] at hbegins
    obtain ⟨ending, hjoined, hresumes⟩ :=
      entryOf?_append_blank (getLast?_ne_of_suffix (List.drop_suffix offset a) hreturn) hentry b
    have hhere : entryAt? (a ++ '\n' :: '\n' :: b) offset =
        some (entry.withEnding ending, ⟨offset, (entry.withEnding ending).whole.length⟩) := by
      rw [entryAt?, hdrop hlimit, hjoined, Option.map_some]
    have hdiagnostic :
        diagnosticOf? (entry.withEnding ending, ⟨offset, (entry.withEnding ending).whole.length⟩) =
          diagnosticOf? (entry, ⟨offset, entry.whole.length⟩) :=
      entry.diagnostic?_withEnding ending offset
    rcases hresumes with hwhole | ⟨hall, hlt, hle⟩
    · obtain ⟨tokens', hscan, hsame⟩ := ih (by simp only [Extent.stop]; omega)
      refine ⟨_ :: tokens', .take (hwithin hlimit) hhere ?_, ?_⟩
      · rw [hwhole]
        exact hscan
      · rw [List.filterMap_cons, List.filterMap_cons, hdiagnostic, hsame]
    · -- The entry takes the rest of the first report, so nothing is left there to be found.
      rw [List.length_drop] at hlt hle
      have hend : offset + entry.whole.length = a.length := by
        rw [hall, List.length_drop]
        omega
      have hnil : tokens = [] := by
        rw [Extent.stop, hend] at hnext
        exact hnext.unique (scan_end a)
      refine ⟨[_], .take (hwithin hlimit) hhere (scan_blank hlater ?_ ?_), ?_⟩
      · simp only [Extent.stop]
        omega
      · simp only [Extent.stop]
        omega
      · rw [hnil, List.filterMap_cons, List.filterMap_cons, hdiagnostic]

/--
Reports joined by a blank line are read one behind the other: the diagnostics of the second stand
further on by the first one and the blank line, and are otherwise what they are without it.
-/
theorem parseAll_append_blank {a : Text} (hreturn : a.getLast? ≠ some '\r') (b : Text) :
    parseAll (a ++ "\n\n".toList ++ b) =
      parseAll a ++ (parseAll b).map (·.shift (a.length + 2)) := by
  obtain ⟨tokens, hscan, hparse⟩ := parseAll_eq a
  obtain ⟨later, hlater, hparseLater⟩ := parseAll_eq b
  obtain ⟨joined, hjoined, hparseJoined⟩ := parseAll_eq (a ++ '\n' :: '\n' :: b)
  obtain ⟨tokens', hscan', hsame⟩ := scan_append_blank hreturn hlater hscan (Nat.zero_le _)
  obtain rfl := hjoined.unique hscan'
  have hreport : a ++ "\n\n".toList ++ b = a ++ '\n' :: '\n' :: b := List.append_assoc a _ b
  have hshift : (diagnosticOf? ∘ fun token => (token.1, token.2.shift (a.length + 2))) =
      fun token => (diagnosticOf? token).map (·.shift (a.length + 2)) :=
    funext fun token => token.1.diagnostic?_add token.2.start (a.length + 2)
  rw [hreport, hparseJoined, hparse, hparseLater, List.filterMap_append, hsame,
    List.filterMap_map, List.map_filterMap, hshift]

/-- The first report ends in a line break, and the second begins with an entry of row zero. -/
theorem parseAll_append_blank_zero :
    "a:1:2: error: x\n".toList.getLast? ≠ some '\r' ∧
      parseAll ("a:1:2: error: x\n".toList ++ "\n\n".toList ++
          "b:0:1: error: y\n\nc:3:4: warning: z".toList) =
        parseAll "a:1:2: error: x\n".toList ++
          (parseAll "b:0:1: error: y\n\nc:3:4: warning: z".toList).map (·.shift 18) ∧
      parseAll "b:0:1: error: y\n\nc:3:4: warning: z".toList =
        [⟨['c'], 3, 4, .warning, ['z'], ⟨17, 17⟩, ⟨19, 3⟩⟩] :=
  ⟨by decide, parseAll_append_blank (by decide) _, by decide +kernel⟩

/-- Behind a carriage return the line breaks end the message before the one in front of it. -/
example : parseAll ("a:1:2: error: x\n\r".toList ++ "\n\n".toList) ≠
    parseAll "a:1:2: error: x\n\r".toList := by
  decide +kernel

end Diagnostic

end ScratchEditor

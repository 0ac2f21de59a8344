import ScratchEditor.Proofs.Editor.Keystrokes

/-!
# Edits at the caret

The caret cuts a text in two.  An edit changes the end of the part before it and leaves the part
behind it alone, but for the line feed that is added where one is missing.

Enter and a closing brace fit together: the brace takes the place of the last unit that Enter
brought with it.  As the line feed ends any comment that ran before it, the brace counts, and the
depth before the caret is one less than before both keys.

Both keys ask for blanks, as many as the width of the unit times a number of levels.  A unit that
settings leave as it is may be so wide that there is no room for them, and then no session is left.

Main definitions:

- `Session.caretBetween`: a session with a text before the caret and one behind it.
- `IndentUnit.kept` and `IndentUnit.entered`: what a key leaves before the caret, and what it
  puts there.
- `Text.missingFeed`: the line feed that is added to a text.

Main results:

- `Session.edit_caretBetween`: what an edit makes of both parts.
- `Session.press_caretBetween`: a key as far as there is room for what it asks for.
- `Session.edits_operateAll`: the edits that may come after every run of a new session.
- `Session.closeBrace_after_enter`: Enter and then a closing brace.
-/

namespace ScratchEditor

/-! ## The line feed that is added -/

namespace Text

/-- The line feed that a text lacks at its end, if one is kept there. -/
def missingFeed (keeps : Bool) (text : Text) : Text :=
  if keeps = true ∧ text.getLast? ≠ some '\n' then ['\n'] else []

theorem ended_eq_append (keeps : Bool) (text : Text) :
    text.ended keeps = text ++ text.missingFeed keeps := by
  unfold ended missingFeed
  by_cases hmissing : keeps = true ∧ text.getLast? ≠ some '\n'
  · rw [if_pos hmissing, if_pos (by simpa using hmissing)]
  · rw [if_neg hmissing, if_neg (by simpa using hmissing), List.append_nil]

/-- Whether a line feed is missing is seen at the end. -/
theorem missingFeed_append (keeps : Bool) (front : Text) {rest : Text} (h : rest ≠ []) :
    missingFeed keeps (front ++ rest) = missingFeed keeps rest := by
  unfold missingFeed
  rw [List.getLast?_append_of_ne_nil _ h]

theorem missingFeed_ended (keeps : Bool) (text : Text) :
    missingFeed keeps (text ++ text.missingFeed keeps) = [] := by
  rw [← ended_eq_append, missingFeed, if_neg]
  rintro ⟨rfl, hlast⟩
  exact hlast (getLast?_ended text)

/-- A text that does not end with a line feed itself hides none behind it. -/
theorem missingFeed_behind (keeps : Bool) {front : Text} (h : front.getLast? ≠ some '\n')
    (after : Text) : missingFeed keeps (front ++ after) = missingFeed keeps after := by
  by_cases hafter : after = []
  · subst hafter
    have hnone : ([] : Text).getLast? ≠ some '\n' := by simp
    unfold missingFeed
    rw [List.append_nil]
    simp only [h, hnone, ne_eq, not_false_eq_true]
  · exact missingFeed_append keeps front hafter

/-- Two edits before the caret add one line feed at most, as long as the second one does not end
with a line feed itself. -/
theorem missingFeed_twice (keeps : Bool) (first after : Text) {second : Text}
    (hsecond : second.getLast? ≠ some '\n') :
    after ++ missingFeed keeps (first ++ after) ++
        missingFeed keeps (second ++ (after ++ missingFeed keeps (first ++ after))) =
      after ++ missingFeed keeps after := by
  rw [missingFeed_behind keeps hsecond]
  by_cases hafter : after = []
  · subst hafter
    rw [List.append_nil, List.nil_append, List.nil_append]
    by_cases hfirst : keeps = true ∧ first.getLast? ≠ some '\n'
    · have hadded : missingFeed keeps first = ['\n'] := if_pos hfirst
      have hends : missingFeed keeps ['\n'] = [] := if_neg fun h => h.2 rfl
      rw [hadded, hends, missingFeed, if_pos ⟨hfirst.1, by simp⟩]
      rfl
    · have hnone : missingFeed keeps first = [] := if_neg hfirst
      rw [hnone, List.nil_append]
  · rw [missingFeed_append keeps first hafter, missingFeed_ended, List.append_nil]

end Text

/-! ## Depth behind an indentation -/

namespace BraceScan

/-- Blanks behind a line feed neither open nor close anything. -/
theorem feedAll_times (depth : Nat) (unit : IndentUnit) (levels : Nat) :
    BraceScan.feedAll ⟨depth, false, false⟩ (unit.times levels) = ⟨depth, false, false⟩ := by
  have hblank : BraceScan.feed ⟨depth, false, false⟩ unit.blank = ⟨depth, false, false⟩ := by
    cases unit <;> rfl
  unfold IndentUnit.times
  induction unit.count levels with
  | zero => rfl
  | succ count ih =>
    rw [List.replicate_succ, feedAll_cons, hblank, ih]

end BraceScan

/-- On an indented new line a closing brace counts, whatever comment ran before. -/
theorem indentDepth_closed (before : Text) (unit : IndentUnit) (levels : Nat) :
    indentDepth (before ++ '\n' :: (unit.times levels ++ ['}'])) = indentDepth before - 1 := by
  have hline : BraceScan.feedAll (BraceScan.start.feedAll before) ('\n' :: unit.times levels) =
      ⟨indentDepth before, false, false⟩ := by
    rw [BraceScan.feedAll_cons, BraceScan.feed_newline]
    exact BraceScan.feedAll_times _ unit levels
  rw [indentDepth, ← List.cons_append, BraceScan.feedAll_append, BraceScan.feedAll_append, hline]
  rfl

/-! ## What keys leave and enter -/

namespace IndentUnit

variable {unit : IndentUnit} {typed : Char} {before : Text}

/-- What a key leaves of the text before the caret: a closing brace takes away a unit that the
text ends with. -/
def kept (unit : IndentUnit) (typed : Char) (before : Text) : Text :=
  if typed = '}' ∧ unit.times 1 <:+ before then
    before.take (before.length - (unit.times 1).length)
  else before

/-- Where there is room for some units, they are as many blanks as their widths together. -/
theorem times_eq_replicate {levels : Nat} (h : unit.width * levels < room) :
    unit.times levels = List.replicate (unit.width * levels) unit.blank := by
  rw [times, count_of_lt_room h]

/-- The last of some units. -/
theorem times_succ {levels : Nat} (h : unit.width * (levels + 1) < room) :
    unit.times (levels + 1) = unit.times levels ++ unit.times 1 := by
  have hfewer : unit.width * levels < room :=
    Nat.lt_of_le_of_lt (Nat.mul_le_mul_left _ (Nat.le_succ levels)) h
  rw [times_eq_replicate h, times_eq_replicate hfewer, Nat.mul_succ, List.replicate_add, times,
    count_one]

/-- What a key enters: a line feed inside braces brings a unit for each of them with it. -/
def entered (unit : IndentUnit) (typed : Char) (before : Text) : Text :=
  if typed = '\n' ∧ 0 < indentDepth before then '\n' :: unit.times (indentDepth before)
  else [typed]

theorem kept_newline (unit : IndentUnit) (before : Text) : unit.kept '\n' before = before :=
  if_neg fun h => absurd h.1 (by decide)

/-- A line feed brings a unit for each open brace with it, also if there is none. -/
theorem entered_newline (unit : IndentUnit) (before : Text) :
    unit.entered '\n' before = '\n' :: unit.times (indentDepth before) := by
  unfold entered
  by_cases hopen : 0 < indentDepth before
  · rw [if_pos ⟨rfl, hopen⟩]
  · rw [if_neg fun h => hopen h.2, Nat.eq_zero_of_not_pos hopen, times_zero]

theorem kept_prefix (unit : IndentUnit) (typed : Char) (before : Text) :
    unit.kept typed before <+: before := by
  unfold kept
  split_ifs
  · exact List.take_prefix _ _
  · exact List.prefix_refl _

/-- A closing brace leaves what stands before the unit. -/
theorem kept_append (unit : IndentUnit) (front : Text) :
    unit.kept '}' (front ++ unit.times 1) = front := by
  rw [kept, if_pos ⟨rfl, List.suffix_append _ _⟩, List.length_append, Nat.add_sub_cancel]
  exact List.take_left

/-- Enter inside braces takes nothing away. -/
theorem onKey_of_opens (h : typed = '\n' ∧ 0 < indentDepth before) :
    unit.onKey typed before = .instead 0 (unit.entered typed before) := by
  rw [entered, if_pos h, h.1, onKey_newline h.2]

/-- A closing brace behind a unit takes its place. -/
theorem onKey_of_closes (h : typed = '}' ∧ unit.times 1 <:+ before) :
    unit.onKey typed before = .instead unit.width (unit.entered typed before) := by
  obtain ⟨rfl, hsuffix⟩ := h
  rw [onKey_brace hsuffix, entered, if_neg fun hfeed => absurd hfeed.1 (by decide)]

end IndentUnit

/-! ## Both parts of a text -/

namespace Session

variable {session : Session} {before after : Text}

/-- The session with a text before the caret and one behind it. -/
def caretBetween (session : Session) (before after : Text) : Session :=
  { session with buffer := ⟨before ++ after⟩, caret := before.length }

/-- A caret inside the text cuts it in two. -/
theorem exists_caretBetween (h : session.caret ≤ session.text.length) :
    ∃ before after, session = session.caretBetween before after := by
  refine ⟨session.text.take session.caret, session.text.drop session.caret, ?_⟩
  unfold caretBetween
  rw [List.take_append_drop, List.length_take, Nat.min_eq_left h]
  rfl

theorem caret_caretBetween_le (session : Session) (before after : Text) :
    (session.caretBetween before after).caret ≤
      (session.caretBetween before after).text.length := by
  have htext : (session.caretBetween before after).text = before ++ after := rfl
  rw [htext, List.length_append]
  exact Nat.le_add_right _ _

theorem take_caretBetween (session : Session) (before after : Text) :
    (session.caretBetween before after).text.take
      (session.caretBetween before after).caret = before :=
  List.take_left

theorem take_caret_of_eq (h : session = session.caretBetween before after) :
    session.text.take session.caret = before := by
  rw [h]
  exact take_caretBetween session before after

/-- An edit that replaces the end of the text before the caret leaves the caret behind what it
entered, and adds the line feed that is missing. -/
theorem edit_caretBetween {input : Input} {front removed inserted : Text}
    (hsplice : (session.caretBetween (front ++ removed) after).splice? input =
      some ⟨front.length, (front ++ removed).length, inserted⟩) :
    ∃ spans, (session.caretBetween (front ++ removed) after).perform input =
      .ok (session.caretBetween (front ++ inserted)
        (after ++ Text.missingFeed session.keepFinalNewline (front ++ inserted ++ after)),
        spans) := by
  have hcaret := session.caret_caretBetween_le (front ++ removed) after
  obtain ⟨-, hperform⟩ := perform_eq hcaret hsplice
  have happly : Splice.apply ⟨front.length, (front ++ removed).length, inserted⟩
      (front ++ removed ++ after) = front ++ inserted ++ after := by
    rw [Splice.apply, List.drop_left, List.append_assoc front removed, List.take_left,
      List.append_assoc]
  have hnext : ((session.caretBetween (front ++ removed) after).splicedBy
      ⟨front.length, (front ++ removed).length, inserted⟩).endLine.1 =
      session.caretBetween (front ++ inserted)
        (after ++ Text.missingFeed session.keepFinalNewline (front ++ inserted ++ after)) := by
    have hspliced : (session.caretBetween (front ++ removed) after).splicedBy
        ⟨front.length, (front ++ removed).length, inserted⟩ =
        session.caretBetween (front ++ inserted) after := by
      have htext : (session.caretBetween (front ++ removed) after).text =
          front ++ removed ++ after := rfl
      unfold splicedBy
      rw [htext, happly, ← List.length_append]
      rfl
    have htext : (session.caretBetween (front ++ inserted) after).text =
        front ++ inserted ++ after := rfl
    rw [hspliced, fst_endLine, htext, Text.ended_eq_append, List.append_assoc]
    rfl
  rw [← hnext]
  exact ⟨_, hperform⟩

/-- A key leaves a beginning of the text before the caret and enters a text behind it. -/
theorem splice?_typeChar (session : Session) (before after : Text) (typed : Char) :
    (session.caretBetween before after).splice? (.typeChar typed) =
      some ⟨(session.indentUnit.kept typed before).length, before.length,
        session.indentUnit.entered typed before⟩ := by
  have hunit : (session.caretBetween before after).indentUnit = session.indentUnit := rfl
  have hcaret : (session.caretBetween before after).caret = before.length := rfl
  unfold splice?
  dsimp only
  rw [take_caretBetween, hunit, hcaret]
  by_cases hopens : typed = '\n' ∧ 0 < indentDepth before
  · have hkept : session.indentUnit.kept typed before = before := by
      rw [IndentUnit.kept, if_neg]
      rintro ⟨rfl, -⟩
      exact absurd hopens.1 (by decide)
    rw [IndentUnit.onKey_of_opens hopens, hkept]
    rfl
  · by_cases hcloses : typed = '}' ∧ session.indentUnit.times 1 <:+ before
    · have hkept : (session.indentUnit.kept typed before).length =
          before.length - session.indentUnit.width := by
        rw [IndentUnit.kept, if_pos hcloses, List.length_take, IndentUnit.length_times,
          IndentUnit.count_one]
        exact Nat.min_eq_left (Nat.sub_le _ _)
      rw [IndentUnit.onKey_of_closes hcloses, hkept]
    · rw [IndentUnit.onKey_of_not hopens hcloses, IndentUnit.kept, if_neg hcloses,
        IndentUnit.entered, if_neg hopens]

/-- What a key makes of the text before the caret. -/
theorem typeChar_caretBetween (session : Session) (before after : Text) (typed : Char) :
    ∃ spans, (session.caretBetween before after).typeChar typed =
      .ok (session.caretBetween
        (session.indentUnit.kept typed before ++ session.indentUnit.entered typed before)
        (after ++ Text.missingFeed session.keepFinalNewline
          (session.indentUnit.kept typed before ++ session.indentUnit.entered typed before ++
            after)), spans) := by
  obtain ⟨removed, hbefore⟩ := session.indentUnit.kept_prefix typed before
  have hsplice := session.splice?_typeChar before after typed
  generalize session.indentUnit.kept typed before = front at hbefore hsplice ⊢
  subst hbefore
  exact edit_caretBetween hsplice

/-- A key is typed if there is room for the blanks it asks for. -/
theorem press_caretBetween (session : Session) (before after : Text) (typed : Char) :
    (session.caretBetween before after).press typed =
      if session.indentUnit.hasRoomFor typed before then
        some <$> (session.caretBetween before after).typeChar typed
      else .ok none := by
  have hbefore : (session.caretBetween before after).buffer.before
      (session.caretBetween before after).caret = .ok before :=
    (Buffer.before_of_le (session.caret_caretBetween_le before after)).trans
      (congrArg Except.ok (session.take_caretBetween before after))
  unfold press
  rw [hbefore]
  rfl

/-- Without room for what a key asks for no session is left. -/
theorem press_of_no_room (before after : Text) {typed : Char}
    (h : session.indentUnit.hasRoomFor typed before = false) :
    (session.caretBetween before after).press typed = .ok none := by
  rw [press_caretBetween, h]
  rfl

/-- What a key makes of both parts, where there is room for what it asks for. -/
theorem press_of_lt_room (session : Session) (before after : Text) (typed : Char)
    (h : session.indentUnit.width * levelsAsked typed before < IndentUnit.room) :
    ∃ spans, (session.caretBetween before after).press typed =
      .ok (some (session.caretBetween
        (session.indentUnit.kept typed before ++ session.indentUnit.entered typed before)
        (after ++ Text.missingFeed session.keepFinalNewline
          (session.indentUnit.kept typed before ++ session.indentUnit.entered typed before ++
            after)), spans)) := by
  have hroom : session.indentUnit.hasRoomFor typed before = true :=
    IndentUnit.hasRoom_of_lt_room h
  obtain ⟨spans, htype⟩ := session.typeChar_caretBetween before after typed
  refine ⟨spans, ?_⟩
  rw [press_caretBetween, if_pos hroom, htype]
  rfl

/-- An inserted text stands behind the text before the caret. -/
theorem insert_caretBetween (session : Session) (before after inserted : Text) :
    ∃ spans, (session.caretBetween before after).insert inserted =
      .ok (session.caretBetween (before ++ inserted)
        (after ++ Text.missingFeed session.keepFinalNewline (before ++ inserted ++ after)),
        spans) := by
  have hsplice : (session.caretBetween (before ++ []) after).splice? (.insert inserted) =
      some ⟨before.length, (before ++ []).length, inserted⟩ := by
    rw [List.append_nil]
    rfl
  have hedit := edit_caretBetween hsplice
  rw [List.append_nil] at hedit
  exact hedit

/-- The character before the caret is taken away. -/
theorem deleteBackward_caretBetween (session : Session) (front after : Text) (c : Char) :
    ∃ spans, (session.caretBetween (front ++ [c]) after).deleteBackward =
      .ok (session.caretBetween front
        (after ++ Text.missingFeed session.keepFinalNewline (front ++ after)), spans) := by
  have hcaret : (session.caretBetween (front ++ [c]) after).caret = (front ++ [c]).length := rfl
  have hsplice : (session.caretBetween (front ++ [c]) after).splice? .deleteBackward =
      some ⟨front.length, (front ++ [c]).length, []⟩ := by
    unfold splice?
    dsimp only
    rw [hcaret, if_neg (by simp), List.length_append, List.length_singleton, Nat.add_sub_cancel]
  have hedit := edit_caretBetween hsplice
  rw [List.append_nil] at hedit
  exact hedit

/--
After every run of a new session the caret cuts the text in two.  As long as there is room for the
blanks a key asks for, it takes away a unit before the caret if it is a closing brace that follows
one, and enters itself, or the line feed with the indentation of the new line.  An insertion
enters its text, and a deletion takes away one character, if there is one before the caret.  The
caret then stands behind what was entered, and the text behind it is as it was, with the line feed
that is missing at its end.
-/
theorem edits_operateAll (settings : Settings) (operations : List Operation) :
    ∃ session before after, (ofSettings settings).operateAll operations = .ok session ∧
      session = session.caretBetween before after ∧
      (∀ typed, session.indentUnit.width * levelsAsked typed before < IndentUnit.room →
        session.indentUnit.times (levelsAsked typed before) =
          List.replicate (session.indentUnit.width * levelsAsked typed before)
            session.indentUnit.blank ∧
        let left := session.indentUnit.kept typed before ++ session.indentUnit.entered typed before
        ∃ spans, session.press typed =
          .ok (some (session.caretBetween left
            (after ++ Text.missingFeed settings.editor.keepFinalNewline (left ++ after)),
            spans))) ∧
      (∀ inserted,
        let left := before ++ inserted
        ∃ spans, session.insert inserted =
          .ok (session.caretBetween left
            (after ++ Text.missingFeed settings.editor.keepFinalNewline (left ++ after)), spans)) ∧
      (∀ front c, before = front ++ [c] → ∃ spans, session.deleteBackward =
          .ok (session.caretBetween front
            (after ++ Text.missingFeed settings.editor.keepFinalNewline (front ++ after)),
            spans)) ∧
      (before = [] → session.deleteBackward = .ok (session, [])) := by
  obtain ⟨session, hrun, hreached⟩ := reached_operateAll (reached_ofSettings settings) operations
  obtain ⟨before, after, hcut⟩ := exists_caretBetween hreached.caret_le
  refine ⟨session, before, after, hrun, hcut, ?_, ?_, ?_, ?_⟩
  · intro typed hroom
    rw [← hreached.keeps]
    have hedit := session.press_of_lt_room before after typed hroom
    rw [← hcut] at hedit
    exact ⟨IndentUnit.times_eq_replicate hroom, hedit⟩
  · intro inserted
    rw [← hreached.keeps]
    have hedit := session.insert_caretBetween before after inserted
    rwa [← hcut] at hedit
  · rintro front c rfl
    rw [← hreached.keeps]
    have hedit := session.deleteBackward_caretBetween front after c
    rwa [← hcut] at hedit
  · rintro rfl
    have hcaret : session.caret = 0 := congrArg Session.caret hcut
    rw [deleteBackward, if_pos hcaret]

/-- Enter inside a brace brings two blanks with it.  Behind them one is taken away, and nothing is
missing behind it.  At the beginning of the text nothing is taken away. -/
theorem edits_operateAll_indented :
    let settings : Settings :=
      { Settings.standard with
        editor := { EditorSettings.standard with indentUnit := .spaces 2 } }
    (∃ session before after spans, (ofSettings settings).operateAll
        [.load ['{', '\n', '}'], .input (.setCaret 1)] = .ok session ∧
      session = session.caretBetween before after ∧ before = ['{'] ∧
      session.indentUnit.width * levelsAsked '\n' before < IndentUnit.room ∧
      session.press '\n' = .ok (some (session.caretBetween ['{', '\n', ' ', ' ']
        (after ++ Text.missingFeed true (['{', '\n', ' ', ' '] ++ after)), spans))) ∧
    (∃ session before after spans, (ofSettings settings).operateAll
        [.load ['{', '\n', '}'], .input (.setCaret 1), .input (.typeChar '\n')] = .ok session ∧
      session = session.caretBetween before after ∧ before = ['{', '\n', ' '] ++ [' '] ∧
      session.deleteBackward = .ok (session.caretBetween ['{', '\n', ' ']
        (after ++ Text.missingFeed true (['{', '\n', ' '] ++ after)), spans)) ∧
    ∃ session before after,
      (ofSettings settings).operateAll [.load ['{', '\n', '}']] = .ok session ∧
      session = session.caretBetween before after ∧ before = [] ∧
      session.deleteBackward = .ok (session, []) := by
  intro settings
  refine ⟨?_, ?_, ?_⟩
  · obtain ⟨session, before, after, hrun, hcut, hpress, -⟩ := edits_operateAll settings
      [.load ['{', '\n', '}'], .input (.setCaret 1)]
    obtain rfl := Except.ok.inj hrun
    obtain rfl : ['{'] = before := take_caret_of_eq hcut
    have hroom : 2 * levelsAsked '\n' ['{'] < IndentUnit.room := by decide
    obtain ⟨-, spans, hspans⟩ := hpress '\n' hroom
    exact ⟨_, _, after, spans, hrun, hcut, rfl, hroom, hspans⟩
  · obtain ⟨session, before, after, hrun, hcut, -, -, hdelete, -⟩ := edits_operateAll settings
      [.load ['{', '\n', '}'], .input (.setCaret 1), .input (.typeChar '\n')]
    have hbefore : before = ['{', '\n', ' '] ++ [' '] := by
      obtain rfl := Except.ok.inj hrun
      exact (take_caret_of_eq hcut).symm
    obtain ⟨spans, hspans⟩ := hdelete _ _ hbefore
    exact ⟨session, before, after, spans, hrun, hcut, hbefore, hspans⟩
  · obtain ⟨session, before, after, hrun, hcut, -, -, -, hnone⟩ := edits_operateAll settings
      [.load ['{', '\n', '}']]
    have hbefore : before = [] := by
      obtain rfl := Except.ok.inj hrun
      exact (take_caret_of_eq hcut).symm
    exact ⟨session, before, after, hrun, hcut, hbefore, hnone hbefore⟩

/-- A unit of 2^63 spaces leaves no room to see whether one stands before a closing brace. -/
theorem not_edits_operateAll_widest :
    let settings : Settings :=
      { Settings.standard with
        editor := { EditorSettings.standard with indentUnit := .spaces 9223372036854775808 } }
    ∃ session, (ofSettings settings).operateAll [] = .ok session ∧
      session = session.caretBetween [] [] ∧ session.press '}' = .ok none := by
  intro settings
  have hfull : (ofSettings settings).indentUnit.hasRoomFor '}' [] = false := by decide
  exact ⟨(ofSettings settings).caretBetween [] [], rfl, rfl, press_of_no_room [] [] hfull⟩

/--
After every run of a new session, if braces are open before the caret and there is room for a unit
for each of them, Enter and then a closing brace leave the brace behind one unit less than there
were open braces.  Behind the caret at most a line feed is added, and the depth before it is one
less than it was.
-/
theorem closeBrace_after_enter (settings : Settings) (operations : List Operation) :
    ∃ session before after, (ofSettings settings).operateAll operations = .ok session ∧
      session = session.caretBetween before after ∧
      (1 ≤ indentDepth before →
        session.indentUnit.width * indentDepth before < IndentUnit.room →
        let left := before ++ '\n' :: (List.replicate
          (session.indentUnit.width * (indentDepth before - 1)) session.indentUnit.blank ++ ['}'])
        ∃ opened spans closed more, session.press '\n' = .ok (some (opened, spans)) ∧
          opened.press '}' = .ok (some (closed, more)) ∧
          closed = session.caretBetween left
            (after ++ Text.missingFeed settings.editor.keepFinalNewline after) ∧
          indentDepth left = indentDepth before - 1) := by
  obtain ⟨session, hrun, hreached⟩ := reached_operateAll (reached_ofSettings settings) operations
  obtain ⟨before, after, hcut⟩ := exists_caretBetween hreached.caret_le
  refine ⟨session, before, after, hrun, hcut, ?_⟩
  intro hopen hroom left
  obtain ⟨depth, hdepth⟩ : ∃ depth, indentDepth before = depth + 1 :=
    Nat.exists_eq_add_of_le' hopen
  rw [hdepth] at hroom
  have hfewer : session.indentUnit.width * depth < IndentUnit.room :=
    Nat.lt_of_le_of_lt (Nat.mul_le_mul_left _ (Nat.le_succ depth)) hroom
  have hone : session.indentUnit.width * 1 < IndentUnit.room :=
    Nat.lt_of_le_of_lt (Nat.mul_le_mul_left _ (Nat.le_add_left 1 depth)) hroom
  -- Enter brings all units with it, the last of which the brace takes away again.
  let front := before ++ '\n' :: session.indentUnit.times depth
  have hleft : left = front ++ ['}'] := by
    simp [left, front, hdepth, IndentUnit.times_eq_replicate hfewer]
  have hasked : session.indentUnit.width * levelsAsked '\n' before < IndentUnit.room := by
    rwa [levelsAsked, if_pos rfl, hdepth]
  obtain ⟨spans, henter⟩ := session.press_of_lt_room before after '\n' hasked
  have hentered : session.indentUnit.kept '\n' before ++ session.indentUnit.entered '\n' before =
      front ++ session.indentUnit.times 1 := by
    rw [IndentUnit.kept_newline, IndentUnit.entered_newline, hdepth, IndentUnit.times_succ hroom,
      ← List.cons_append, ← List.append_assoc]
  rw [← hcut, hentered, hreached.keeps] at henter
  obtain ⟨more, hclose⟩ := session.press_of_lt_room (front ++ session.indentUnit.times 1)
    (after ++ Text.missingFeed settings.editor.keepFinalNewline
      (front ++ session.indentUnit.times 1 ++ after)) '}' hone
  have hbrace : session.indentUnit.entered '}' (front ++ session.indentUnit.times 1) = ['}'] := by
    rw [IndentUnit.entered, if_neg (by simp)]
  have hlast : left.getLast? ≠ some '\n' := by
    rw [hleft, List.getLast?_concat]
    decide
  rw [IndentUnit.kept_append, hbrace, ← hleft, hreached.keeps,
    Text.missingFeed_twice _ _ _ hlast] at hclose
  refine ⟨_, spans, _, more, henter, hclose, rfl, ?_⟩
  rw [hleft, List.append_assoc]
  exact indentDepth_closed before session.indentUnit depth

/-- A comment that runs before Enter hides its own brace, but not the one that follows. -/
theorem closeBrace_after_enter_comment :
    ∃ session before after, (ofSettings .standard).operateAll
        [.input (.insert ['{', '{', '/', '/', '{'])] = .ok session ∧
      session = session.caretBetween before after ∧ 1 ≤ indentDepth before ∧
      session.indentUnit.width * indentDepth before < IndentUnit.room ∧
      ∃ opened spans closed more, session.press '\n' = .ok (some (opened, spans)) ∧
        opened.press '}' = .ok (some (closed, more)) ∧
        closed = session.caretBetween ['{', '{', '/', '/', '{', '\n', '\t', '}'] ['\n'] ∧
        indentDepth ['{', '{', '/', '/', '{', '\n', '\t', '}'] = 1 := by
  obtain ⟨session, before, after, hrun, hcut, hclose⟩ := closeBrace_after_enter .standard
    [.input (.insert ['{', '{', '/', '/', '{'])]
  obtain rfl := Except.ok.inj hrun
  obtain rfl : ['{', '{', '/', '/', '{'] = before := take_caret_of_eq hcut
  have htext := congrArg Session.text hcut
  obtain rfl : ['\n'] = after := List.append_cancel_left htext
  have hopen : 1 ≤ indentDepth ['{', '{', '/', '/', '{'] := by decide
  have hroom : 1 * indentDepth ['{', '{', '/', '/', '{'] < IndentUnit.room := by decide
  exact ⟨_, _, _, hrun, hcut, hopen, hroom, hclose hopen hroom⟩

/-- Inside one brace Enter finds no room for a unit of 2^63 spaces. -/
theorem not_closeBrace_after_enter_widest :
    let settings : Settings :=
      { Settings.standard with
        editor := { EditorSettings.standard with indentUnit := .spaces 9223372036854775808 } }
    ∃ session, (ofSettings settings).operateAll [.input (.insert ['{'])] = .ok session ∧
      session = session.caretBetween ['{'] ['\n'] ∧ 1 ≤ indentDepth ['{'] ∧
      session.press '\n' = .ok none := by
  intro settings
  have hopen : 1 ≤ indentDepth ['{'] := by decide
  have hfull : (ofSettings settings).indentUnit.hasRoomFor '\n' ['{'] = false := by decide
  exact ⟨(ofSettings settings).caretBetween ['{'] ['\n'], rfl, rfl, hopen,
    press_of_no_room ['{'] ['\n'] hfull⟩

end Session

end ScratchEditor

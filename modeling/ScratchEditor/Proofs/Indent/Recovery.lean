import ScratchEditor.Proofs.Editor.Edits
import ScratchEditor.Proofs.Indent.Votes

/-!
# Detecting what was written

A text whose rows are indented by one unit, level by level, is unanimous: each row that votes at
all votes for that unit.  Detection finds the unit again, and a session that opens the text goes
on writing with it until another text is opened.

Main definitions:

- `Text.IndentedBy`: a text whose rows are indented by a unit.

Main results:

- `detectIndent_of_unanimous`: a unit that has all votes is detected.
- `Session.indentUnit_operateAll`: a unit is kept until another text is opened.
- `Session.detectIndent_recovers`: detection finds the unit that a text is indented by.
-/

namespace ScratchEditor

/--
A text is indented by a unit if each row inside braces begins with a unit for each level of its
depth and goes on with something else than a space or a tab.  Some row has to be inside.
-/
structure Text.IndentedBy (unit : IndentUnit) (text : Text) : Prop where
  indented : ∀ place : PlacedRow, place.StandsIn text → place.IsInside →
    ∃ body, place.row = unit.times place.depth ++ body ∧ ∀ c ∈ body.head?, isIndentChar c = false
  exists_inside : ∃ place : PlacedRow, place.StandsIn text ∧ place.IsInside

variable {unit other : IndentUnit} {text : Text} {place : PlacedRow}

/-! ## Indented rows -/

/-- Behind its units, a row goes on with what is left without its spaces and tabs. -/
theorem Text.exists_body_iff {row indent : Text} (h : ∀ c ∈ indent, isIndentChar c = true) :
    (∃ body, row = indent ++ body ∧ ∀ c ∈ body.head?, isIndentChar c = false) ↔
      row = indent ++ row.dropWhile isIndentChar := by
  constructor
  · rintro ⟨body, rfl, hbody⟩
    rw [dropWhile_run h hbody]
  · intro hrow
    refine ⟨_, hrow, ?_⟩
    intro c hc
    rw [← List.find?_not_eq_head?_dropWhile] at hc
    simpa using List.find?_some hc

theorem IndentUnit.isIndentChar_of_mem_times {levels : Nat} {c : Char} (h : c ∈ unit.times levels) :
    isIndentChar c = true := by
  rw [List.eq_of_mem_replicate h]
  cases unit <;> rfl

/-- Whether a text is indented by a unit is seen row by row. -/
theorem Text.indentedBy_iff :
    text.IndentedBy unit ↔
      (∀ place ∈ text.placedRows, place.IsInside →
        place.row = unit.times place.depth ++ place.row.dropWhile isIndentChar) ∧
      ∃ place ∈ text.placedRows, place.IsInside := by
  simp only [PlacedRow.mem_placedRows_iff]
  constructor
  · rintro ⟨hrows, hsome⟩
    refine ⟨fun place hplace hinside => ?_, hsome⟩
    exact (exists_body_iff fun _ => IndentUnit.isIndentChar_of_mem_times).mp
      (hrows place hplace hinside)
  · rintro ⟨hrows, hsome⟩
    refine ⟨fun place hplace hinside => ?_, hsome⟩
    exact (exists_body_iff fun _ => IndentUnit.isIndentChar_of_mem_times).mpr
      (hrows place hplace hinside)

instance (unit : IndentUnit) (text : Text) : Decidable (text.IndentedBy unit) :=
  decidable_of_iff _ Text.indentedBy_iff.symm

/-! ## Unanimous votes -/

/-- A row that is indented by a unit votes for it. -/
theorem PlacedRow.votesFor_of_indented (hunit : unit.Detectable) (hinside : place.IsInside)
    {body : Text} (hrow : place.row = unit.times place.depth ++ body)
    (hbody : ∀ c ∈ body.head?, isIndentChar c = false) : place.VotesFor unit := by
  cases unit with
  | tab =>
    refine ⟨hinside, ?_⟩
    obtain ⟨levels, hdepth⟩ := Nat.exists_eq_succ_of_ne_zero (Nat.ne_of_gt hinside.1)
    have hcount : IndentUnit.tab.count (levels + 1) = levels + 1 := by
      rw [IndentUnit.count_of_width_le (by decide), IndentUnit.width, Nat.one_mul]
    rw [hrow, hdepth, IndentUnit.times, hcount]
    rfl
  | spaces width =>
    refine ⟨hinside, hunit, ?_⟩
    have hspaces : ∀ c ∈ (IndentUnit.spaces width).times place.depth, (c == ' ') = true := by
      intro c hc
      exact beq_iff_eq.mpr (List.eq_of_mem_replicate hc)
    have hother : ∀ c ∈ body.head?, (c == ' ') = false := by
      intro c hc
      have hnot := hbody c hc
      simp only [isIndentChar, Bool.or_eq_false_iff] at hnot
      exact hnot.1
    have hwidth : (IndentUnit.spaces width).width ≤ IndentUnit.widest := hunit.2
    rw [hrow, Text.runLength, Text.takeWhile_run hspaces hother, IndentUnit.length_times,
      IndentUnit.count_of_width_le hwidth]
    rfl

/-- No row votes for two units. -/
theorem PlacedRow.VotesFor.unique (h : place.VotesFor unit) (hother : place.VotesFor other) :
    other = unit := by
  rw [← lineVote_eq_some_iff] at h hother
  exact Option.some.inj (hother.symm.trans h)

/-- A unit that has all votes is detected. -/
theorem detectIndent_of_unanimous (hsome : 0 < text.votesFor unit)
    (hnone : ∀ other ≠ unit, text.votesFor other = 0) : detectIndent text = some unit := by
  cases unit with
  | tab =>
    have htabs : text.PrefersTabs := by
      refine ⟨hsome, ?_⟩
      rw [Finset.sum_eq_zero fun width _ => hnone (.spaces width) (by simp)]
      exact Nat.zero_le _
    rcases detectIndent_eq text with ⟨-, hdetect⟩ | ⟨hnot, -⟩
    · exact hdetect
    · exact absurd htabs hnot
  | spaces width =>
    have htabs : ¬ text.PrefersTabs := fun htabs => by
      have hzero := hnone .tab (by simp)
      exact Nat.ne_of_gt htabs.1 hzero
    rcases detectIndent_eq text with ⟨hyes, -⟩ | ⟨-, hdetect⟩
    · exact absurd hyes htabs
    · have hother {other : Nat} (hne : other ≠ width) : text.votesFor (.spaces other) = 0 :=
        hnone (.spaces other) (by simpa using hne)
      rw [hdetect, (favouriteWidth_eq_some_iff text width).mpr ⟨hsome, ?_, ?_⟩]
      · rfl
      · intro other
        by_cases hsame : other = width
        · rw [hsame]
        · rw [hother hsame]
          exact Nat.zero_le _
      · intro other hlt
        rw [hother (Nat.ne_of_lt hlt)]
        exact hsome

/-- Detection finds the unit that a text is indented by. -/
theorem Text.IndentedBy.detectIndent_eq (h : text.IndentedBy unit) (hunit : unit.Detectable) :
    detectIndent text = some unit := by
  have hvotes {place : PlacedRow} (hplace : place ∈ text.placedRows) (hinside : place.IsInside) :
      place.VotesFor unit := by
    obtain ⟨body, hrow, hbody⟩ := h.indented place (PlacedRow.mem_placedRows_iff.mp hplace) hinside
    exact PlacedRow.votesFor_of_indented hunit hinside hrow hbody
  apply detectIndent_of_unanimous
  · obtain ⟨place, hstands, hinside⟩ := h.exists_inside
    have hplace := PlacedRow.mem_placedRows_iff.mpr hstands
    exact List.countP_pos_iff.mpr ⟨place, hplace, by simpa using hvotes hplace hinside⟩
  · intro other hne
    rw [Text.votesFor, List.countP_eq_zero]
    intro place hplace hother
    have hother : place.VotesFor other := by simpa using hother
    exact hne ((hvotes hplace hother.isInside).unique hother)

/-! ## Writing on -/

namespace Session

variable {session : Session}

/-- A session that opens a text begins there, with the unit the text may bring. -/
theorem fst_load (session : Session) (text : Text) :
    (session.load text).1 =
      { session with
        buffer := ⟨text.ended session.keepFinalNewline⟩
        caret := 0
        indentUnit := session.unitFor text } :=
  fst_endLine _

/-- The unit is kept until another text is opened. -/
theorem indentUnit_operateAll (h : session.caret ≤ session.text.length)
    {operations : List Operation} (hloads : ∀ opened, .load opened ∉ operations) {final : Session}
    (hrun : session.operateAll operations = .ok final) :
    final.indentUnit = session.indentUnit := by
  induction operations generalizing session with
  | nil =>
    obtain rfl := Except.ok.inj hrun
    rfl
  | cons operation operations ih =>
    obtain ⟨next, hnext, hfollows⟩ := exists_operate h operation
    rw [operateAll, hnext] at hrun
    have hunit : session.unitAfter operation = session.indentUnit := by
      cases operation with
      | load opened => exact absurd List.mem_cons_self (hloads opened)
      | setText text => rfl
      | input input => rfl
      | jumpTo target => rfl
      | requestJump target => rfl
      | applyPendingJumps => rfl
    have hlater := ih hfollows.caret_le (fun opened hmem => hloads opened
      (List.mem_cons_of_mem operation hmem)) hrun
    obtain ⟨buffer, caret, jumps, rfl⟩ := operate_eq h hnext
    exact hlater.trans hunit

/--
Detection finds the unit that a text is indented by.  So a session that looks for units and opens
the text goes on with that unit: after every run in which no other text is opened, Enter brings a
unit for each brace that is open before the caret.
-/
theorem detectIndent_recovers (unit : IndentUnit) (text : Text) (hunit : unit.Detectable)
    (h : text.IndentedBy unit) :
    detectIndent text = some unit ∧
    ∀ session : Session, session.detectsIndent = true → ∀ operations : List Operation,
      (∀ opened, .load opened ∉ operations) →
      ∃ final before after spans,
        (session.load text).1.operateAll operations = .ok final ∧
        final = final.caretBetween before after ∧
        let left := before ++ '\n' :: unit.times (indentDepth before)
        final.typeChar '\n' = .ok (final.caretBetween left
          (after ++ Text.missingFeed session.keepFinalNewline (left ++ after)), spans) := by
  have hdetect := h.detectIndent_eq hunit
  refine ⟨hdetect, ?_⟩
  intro session hdetects operations hloads
  have hunitFor : session.unitFor text = unit := by
    rw [unitFor, if_pos hdetects, hdetect, Option.getD_some]
  have hcaret : (session.load text).1.caret ≤ (session.load text).1.text.length := by
    rw [fst_load]
    exact Nat.zero_le _
  obtain ⟨final, hrun, hinside, hkeeps⟩ := exists_operateAll hcaret operations
  have hunit := indentUnit_operateAll hcaret hloads hrun
  obtain ⟨before, after, hcut⟩ := exists_caretBetween hinside
  obtain ⟨spans, henter⟩ := final.typeChar_caretBetween before after '\n'
  refine ⟨final, before, after, spans, hrun, hcut, ?_⟩
  rw [fst_load] at hunit hkeeps
  rwa [IndentUnit.kept_newline, IndentUnit.entered_newline, hunit, hkeeps, hunitFor, ← hcut]
    at henter

/-- Two spaces for each brace, with an empty row and a brace in a comment in between. -/
theorem detectIndent_recovers_two_spaces :
    let text : Text := "\x7b\n  a\n\n  \x7b// \x7d\n    b\n  \x7d\n\x7d".toList
    let settings : Settings :=
      { Settings.standard with editor := { EditorSettings.standard with detectIndent := true } }
    (IndentUnit.spaces 2).Detectable ∧ text.IndentedBy (.spaces 2) ∧
    detectIndent text = some (.spaces 2) ∧ (ofSettings settings).detectsIndent = true ∧
    (∀ opened, .load opened ∉ [Operation.input (.setCaret 20)]) ∧
    ∃ final before after spans,
      ((ofSettings settings).load text).1.operateAll [.input (.setCaret 20)] = .ok final ∧
      final = final.caretBetween before after ∧ indentDepth before = 2 ∧
      let left := before ++ '\n' :: [' ', ' ', ' ', ' ']
      final.typeChar '\n' = .ok (final.caretBetween left
        (after ++ Text.missingFeed true (left ++ after)), spans) := by
  intro text settings
  have hunit : (IndentUnit.spaces 2).Detectable := ⟨by decide, by decide⟩
  have hindented : text.IndentedBy (.spaces 2) := by decide
  have hloads : ∀ opened, .load opened ∉ [Operation.input (.setCaret 20)] := by simp
  obtain ⟨hdetect, hsession⟩ := detectIndent_recovers (.spaces 2) text hunit hindented
  obtain ⟨final, before, after, spans, hrun, hcut, henter⟩ :=
    hsession (ofSettings settings) rfl [.input (.setCaret 20)] hloads
  have hbefore : text.take 20 = before := by
    obtain rfl := Except.ok.inj hrun
    exact take_caret_of_eq hcut
  have hdepth : indentDepth before = 2 := by
    rw [← hbefore]
    decide
  rw [hdepth] at henter
  exact ⟨hunit, hindented, hdetect, rfl, hloads, final, before, after, spans, hrun, hcut, hdepth,
    henter⟩

end Session

end ScratchEditor

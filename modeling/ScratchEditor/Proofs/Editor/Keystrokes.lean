import ScratchEditor.Proofs.Editor.Operations
import ScratchEditor.Proofs.Editor.UpToDate
import ScratchEditor.Proofs.Token.Leftmost

/-!
# What keystrokes report

The highlighter tells a keystroke from a new text that a program puts in place by where the
change begins, how long it is and by how much the text grew.  One keystroke looks like a new text
all the same: a closing brace that takes the place of a single blank, if there is nothing else in
the text.  No line feed is kept at the end of such a text.

Main definitions:

- `Input.isKeystroke`: whether an input is a keystroke that changes the text.
- `Session.Reached`: what holds of the sessions of some settings.

Main results:

- `Session.Reached.operate`: what one operation keeps.
- `Session.reached_operateAll`: every run of a new session.
- `Session.perform_keystroke`: the first span that a keystroke reports.
-/

namespace ScratchEditor

/-- Whether an input is a keystroke that changes the text. -/
def Input.isKeystroke (caret : Nat) : Input → Bool
  | .setCaret _ => false
  | .typeChar _ => true
  | .insert text => !text.isEmpty
  | .deleteBackward => caret != 0

namespace Session

/-- A session that may come of some settings.  If line feeds are kept at the end of a text, the
text has one there unless nothing was put in place yet. -/
structure Reached (settings : Settings) (session : Session) : Prop where
  highlighter : session.highlighter = .ofSettings settings
  keeps : session.keepFinalNewline = settings.editor.keepFinalNewline
  caret_le : session.caret ≤ session.text.length
  ends : session.keepFinalNewline = true → session.text = [] ∨ session.text.getLast? = some '\n'

variable {settings : Settings} {session : Session}

/-! ## Runs -/

/-- No operation changes what is looked for. -/
theorem highlighter_operate (h : session.caret ≤ session.text.length) {operation : Operation}
    {next : Session} (hnext : session.operate operation = .ok next) :
    next.highlighter = session.highlighter := by
  obtain ⟨buffer, caret, jumps, rfl⟩ := operate_eq h hnext
  rfl

theorem reached_ofSettings (settings : Settings) : (ofSettings settings).Reached settings :=
  ⟨rfl, rfl, Nat.le_refl 0, fun _ => Or.inl rfl⟩

/-- Every operation succeeds, and leads to a session of the same settings. -/
theorem Reached.operate (h : session.Reached settings) (operation : Operation) :
    ∃ next, session.operate operation = .ok next ∧ next.Reached settings := by
  obtain ⟨next, hnext, hfollows⟩ := exists_operate h.caret_le operation
  refine ⟨next, hnext, ?_, hfollows.keeps.trans h.keeps, hfollows.caret_le, ?_⟩
  · rw [highlighter_operate h.caret_le hnext, h.highlighter]
  · intro hkeeps
    rw [hfollows.keeps] at hkeeps
    cases hedited : session.edited? operation with
    | none =>
      rw [hfollows.text_eq, hedited]
      exact h.ends hkeeps
    | some text =>
      right
      apply hfollows.getLast? hkeeps
      left
      rw [hedited]
      rfl

/-- Every run of a new session succeeds, and leads to a session of its settings. -/
theorem reached_operateAll (h : session.Reached settings) (operations : List Operation) :
    ∃ final, session.operateAll operations = .ok final ∧ final.Reached settings := by
  induction operations generalizing session with
  | nil => exact ⟨session, rfl, h⟩
  | cons operation operations ih =>
    obtain ⟨next, hnext, hreached⟩ := h.operate operation
    obtain ⟨final, hfinal, hlast⟩ := ih hreached
    refine ⟨final, ?_, hlast⟩
    rw [operateAll, hnext]
    exact hfinal

/-! ## Keystrokes -/

/-- A keystroke replaces a stretch of the text. -/
theorem exists_splice? {input : Input} (hkey : input.isKeystroke session.caret = true) :
    ∃ splice, session.splice? input = some splice := by
  have hedits := isSome_edited? session (.input input)
  have hsplice : (session.edited? (.input input)).isSome = (session.splice? input).isSome :=
    Option.isSome_map
  rw [hsplice] at hedits
  apply Option.isSome_iff_exists.mp
  rw [hedits]
  cases input with
  | setCaret offset => cases hkey
  | typeChar typed => rfl
  | insert text => rfl
  | deleteBackward => exact hkey

/-- The lines that hold what an edit produced are classified, unless the edit is taken for a new
text and those are not highlighted. -/
theorem report_splicedBy (h : session.highlighter = .ofSettings settings) (splice : Splice) :
    (session.splicedBy splice).report splice.produced splice.delta =
      if settings.editor.highlightReplacement = false ∧
          (Edit.ofText splice.produced splice.delta).replacesAll (splice.apply session.text) = true
      then []
      else
        (Classifier.ofSettings settings).classify (splice.apply session.text) splice.produced := by
  have hclassifier := Highlighter.classifier_ofSettings settings
  have hsees : (Highlighter.ofSettings settings).sees (splice.apply session.text)
      (.ofText splice.produced splice.delta) = (settings.editor.highlightReplacement ||
        !(Edit.ofText splice.produced splice.delta).replacesAll (splice.apply session.text)) := rfl
  have hreport : (session.splicedBy splice).report splice.produced splice.delta =
      (session.highlighter.refresh (splice.apply session.text)
        (.ofText splice.produced splice.delta)).getD [] := rfl
  have hextent : (Edit.ofText splice.produced splice.delta).extent = splice.produced := rfl
  rw [hreport, h, Highlighter.refresh, hsees, hclassifier, hextent]
  cases settings.editor.highlightReplacement with
  | true => simp
  | false =>
    cases (Edit.ofText splice.produced splice.delta).replacesAll (splice.apply session.text) with
    | true => simp
    | false => simp

/-- An edit that is reported begins with the base style of the whole lines. -/
theorem head?_settle (h : session.highlighter = .ofSettings settings) {splice : Splice}
    (hseen : ¬ (settings.editor.highlightReplacement = false ∧
      (Edit.ofText splice.produced splice.delta).replacesAll (splice.apply session.text) = true)) :
    ((session.splicedBy splice).settle splice.produced splice.delta).2.head? =
      some ⟨(splice.apply session.text).wholeLines splice.produced,
        .regular settings.theme.tokens.text, none⟩ := by
  have hspans : ((session.splicedBy splice).settle splice.produced splice.delta).2 =
      (session.splicedBy splice).report splice.produced splice.delta ++
        (session.splicedBy splice).endLine.2 := rfl
  rw [hspans, report_splicedBy h, if_neg hseen, Classifier.classify_eq, Classifier.ofSettings,
    Classifier.baseStyle_ofCategories]
  rfl

/-- An edit that is not reported is answered without a span where no line feed is added. -/
theorem snd_settle_eq_nil (h : session.highlighter = .ofSettings settings) {splice : Splice}
    (hskipped : settings.editor.highlightReplacement = false ∧
      (Edit.ofText splice.produced splice.delta).replacesAll (splice.apply session.text) = true)
    (hkeeps : session.keepFinalNewline = false) :
    ((session.splicedBy splice).settle splice.produced splice.delta).2 = [] := by
  have hspans : ((session.splicedBy splice).settle splice.produced splice.delta).2 =
      (session.splicedBy splice).report splice.produced splice.delta ++
        (session.splicedBy splice).endLine.2 := rfl
  have hlacks : (session.splicedBy splice).lacksFinalNewline = false := by
    have hsame : (session.splicedBy splice).keepFinalNewline = session.keepFinalNewline := rfl
    rw [lacksFinalNewline, hsame, hkeeps, Bool.false_and]
  rw [hspans, report_splicedBy h, if_pos hskipped, endLine, hlacks]
  rfl

/-- Where line feeds are kept at the end no text is a single blank. -/
theorem Reached.keeps_of_overtypes (h : session.Reached settings) {input : Input}
    (hover : session.Overtypes input) : session.keepFinalNewline = false := by
  rw [Bool.eq_false_iff]
  intro hkeeps
  have hends := h.ends hkeeps
  rw [hover.text_eq] at hends
  rcases hends with hnil | hlast
  · cases hnil
  · exact session.indentUnit.blank_ne_newline (Option.some.inj hlast)

/--
After every run of a new session a keystroke that changes the text is answered, and the first
span of the answer gives the base style to the whole lines that hold what the keystroke produced.
There is one exception, a closing brace that takes the place of the blank that was the whole
text.  It is answered without a span if new texts are not highlighted, and can only come if no
line feed is kept at the end of the text.
-/
theorem perform_keystroke (settings : Settings) (operations : List Operation) :
    ∃ session, (ofSettings settings).operateAll operations = .ok session ∧
      ∀ input : Input, input.isKeystroke session.caret = true →
        ∃ splice next spans, session.splice? input = some splice ∧
          session.perform input = .ok (next, spans) ∧
          (spans = [] ↔ settings.editor.keepFinalNewline = false ∧
            settings.editor.highlightReplacement = false ∧ session.Overtypes input) ∧
          (spans ≠ [] → spans.head? =
            some ⟨(splice.apply session.text).wholeLines splice.produced,
              .regular settings.theme.tokens.text, none⟩) := by
  obtain ⟨session, hrun, hreached⟩ := reached_operateAll (reached_ofSettings settings) operations
  refine ⟨session, hrun, ?_⟩
  intro input hkey
  obtain ⟨splice, hsplice⟩ := exists_splice? hkey
  obtain ⟨-, hperform⟩ := perform_eq hreached.caret_le hsplice
  -- an empty text that is inserted is no keystroke
  have hwhole : (Edit.ofText splice.produced splice.delta).replacesAll
      (splice.apply session.text) = true ↔ session.Overtypes input := by
    rw [replacesAll_splice?_iff hreached.caret_le hsplice]
    refine or_iff_left ?_
    rintro ⟨rfl, -⟩
    cases hkey
  let settled := (session.splicedBy splice).settle splice.produced splice.delta
  refine ⟨splice, settled.1, settled.2, hsplice, hperform, ?_⟩
  rw [← hwhole]
  by_cases hskipped : settings.editor.highlightReplacement = false ∧
      (Edit.ofText splice.produced splice.delta).replacesAll (splice.apply session.text) = true
  · have hkeeps := hreached.keeps_of_overtypes (hwhole.mp hskipped.2)
    have hnil : settled.2 = [] := snd_settle_eq_nil hreached.highlighter hskipped hkeeps
    have hsettings := hreached.keeps.symm.trans hkeeps
    exact ⟨iff_of_true hnil ⟨hsettings, hskipped⟩, fun hsome => absurd hnil hsome⟩
  · have hhead := head?_settle hreached.highlighter hskipped
    refine ⟨iff_of_false ?_ fun hall => hskipped hall.2, fun _ => hhead⟩
    intro hnil
    rw [hnil] at hhead
    cases hhead

/-- A closing brace takes the place of the tab before it, with a line feed behind it. -/
theorem perform_keystroke_brace :
    ∃ session, (ofSettings .standard).operateAll [.input (.insert ['\t'])] = .ok session ∧
      (Input.typeChar '}').isKeystroke session.caret = true ∧
      ∃ splice next spans, session.splice? (.typeChar '}') = some splice ∧
        session.perform (.typeChar '}') = .ok (next, spans) ∧ spans ≠ [] ∧
        spans.head? = some ⟨(splice.apply session.text).wholeLines splice.produced,
          .regular Settings.standard.theme.tokens.text, none⟩ := by
  obtain ⟨session, hrun, hall⟩ := perform_keystroke .standard [.input (.insert ['\t'])]
  obtain ⟨splice, next, spans, hsplice, hperform, hnil, hhead⟩ := hall (.typeChar '}') rfl
  have hsome : spans ≠ [] := by
    intro hempty
    exact Bool.false_ne_true (hnil.mp hempty).1.symm
  exact ⟨session, hrun, rfl, splice, next, spans, hsplice, hperform, hsome, hhead hsome⟩

/-- A closing brace that takes the place of the tab before it is not reported if the tab was the
whole text. -/
theorem not_perform_keystroke_brace :
    let settings : Settings :=
      { Settings.standard with
        editor := { EditorSettings.standard with keepFinalNewline := false } }
    ∃ session next, (ofSettings settings).operateAll [.input (.insert ['\t'])] = .ok session ∧
      (Input.typeChar '}').isKeystroke session.caret = true ∧
      session.perform (.typeChar '}') = .ok (next, []) ∧ next.text = ['}'] :=
  ⟨_, _, rfl, rfl, rfl, rfl⟩

end Session

end ScratchEditor

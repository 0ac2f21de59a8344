import ScratchEditor.Proofs.Editor.Repaint

/-!
# Views that are kept up to date

A view that paints the spans of every answer over the styles it has shows the styles of the
whole text, as long as no token runs over the end of a line, with one exception: if an edit
ends what it produces with a line feed, the rest of the line behind it is not reported.  The
view stays up to date exactly when such edits leave the styles of that rest as they are.

Main definitions:

- `View.Unbroken`: no token of the text runs over the end of a line.
- `View.UpToDate`: the styles are those of the whole text.
- `View.KeepsTail` and `View.KeepsTails`: line feeds leave the styles behind them as they are.

Main results:

- `View.upToDate_step_iff`: when one input leaves a view up to date.
- `View.upToDate_run_iff`: when a run of inputs keeps a view up to date.
-/

namespace ScratchEditor

namespace View

/-- No token of the text holds a line feed behind which the text goes on. -/
def Unbroken (view : View) : Prop :=
  view.session.highlighter.classifier.Unbroken view.session.text

/-- The styles are painted from the spans of the whole text. -/
def UpToDate (view : View) : Prop :=
  view.styles = .paint (List.replicate view.session.buffer.size none) view.session.highlight

/--
If an input is an edit whose text ends with a line feed, the rest of the line behind it has
the same styles in the new text as in the old one.
-/
def KeepsTail (view : View) (input : Input) (next : View) : Prop :=
  ∀ splice, view.session.splice? input = some splice →
    splice.inserted.getLast? = some '\n' →
      ∀ i < (Text.firstLine (view.session.text.drop splice.stop)).length,
        colorAt next.session.highlight (splice.start + splice.inserted.length + i) =
          colorAt view.session.highlight (splice.stop + i)

/-- Every input of a run keeps the styles behind it. -/
def KeepsTails : View → List Input → List View → Prop
  | view, input :: inputs, next :: views =>
    view.KeepsTail input next ∧ next.KeepsTails inputs views
  | _, _, _ => True

instance (view : View) : Decidable view.Unbroken :=
  inferInstanceAs (Decidable (Classifier.Unbroken _ _))

instance (view : View) : Decidable view.UpToDate :=
  inferInstanceAs (Decidable (_ = _))

end View

/-! ## Reports -/

theorem Highlighter.classifier_mk (classifier : Classifier) (sees : Bool) :
    (Highlighter.mk classifier sees).classifier = classifier :=
  rfl

theorem Highlighter.classifier_ofSettings (settings : Settings) :
    (Highlighter.ofSettings settings).classifier = Classifier.ofSettings settings := by
  unfold Highlighter.ofSettings
  exact Highlighter.classifier_mk _ _

namespace Session

variable {settings : Settings} {session : Session}

theorem highlight_eq (session : Session) :
    session.highlight = session.highlighter.classifier.highlight session.text :=
  rfl

theorem Ready.classifier_eq (h : session.Ready settings) :
    session.highlighter.classifier = Classifier.ofSettings settings := by
  rw [h.highlighter]
  exact Highlighter.classifier_ofSettings settings

/-- What does not replace the whole text is reported. -/
theorem report_eq (session : Session) {extent : Extent} {delta : Int}
    (hpart : (Edit.ofText extent delta).replacesAll session.text = false) :
    session.report extent delta =
      session.highlighter.classifier.classify session.text extent := by
  have hsees : session.highlighter.sees session.text (.ofText extent delta) = true := by
    have hchanges : (Edit.ofText extent delta).changesText = true := rfl
    simp [Highlighter.sees, hchanges, hpart]
  unfold report Highlighter.refresh
  rw [if_pos hsees]
  rfl

/-- A line feed is added where it is missing, and reported. -/
theorem endLine_eq (session : Session) (hkeeps : session.keepFinalNewline = true) :
    session.endLine =
      if session.text.getLast? = some '\n' then (session, [])
      else ({ session with buffer := ⟨session.text ++ ['\n']⟩ },
        session.highlighter.classifier.classify (session.text ++ ['\n'])
          ⟨session.text.length, 1⟩) := by
  have hlacks : session.lacksFinalNewline = true ↔ ¬ session.text.getLast? = some '\n' := by
    unfold lacksFinalNewline
    rw [hkeeps, Bool.true_and, bne_iff_ne]
    rfl
  unfold endLine
  by_cases hends : session.text.getLast? = some '\n'
  · rw [if_neg fun hmissing => hlacks.mp hmissing hends, if_pos hends]
  · have hreport := @report_eq { session with buffer := ⟨session.text ++ ['\n']⟩ }
      ⟨session.text.length, 1⟩ 1 (replacesAll_eq_false (Or.inl (by decide)))
    rw [if_pos (hlacks.mpr hends), if_neg hends]
    exact congrArg (Prod.mk _) hreport

/-- Once the line feed has been added the session can be edited. -/
theorem ready_endLine (hhighlighter : session.highlighter = .ofSettings settings)
    (hkeeps : session.keepFinalNewline = true) (hcaret : session.caret ≤ session.text.length) :
    session.endLine.1.Ready settings := by
  rw [endLine_eq session hkeeps]
  by_cases hends : session.text.getLast? = some '\n'
  · rw [if_pos hends]
    exact ⟨hhighlighter, hkeeps, hcaret, hends⟩
  · rw [if_neg hends]
    refine ⟨hhighlighter, hkeeps, ?_, List.getLast?_concat⟩
    have htext : ({ session with buffer := ⟨session.text ++ ['\n']⟩ } : Session).text =
        session.text ++ ['\n'] := rfl
    rw [htext, List.length_append]
    exact Nat.le_add_right_of_le hcaret

/-- An edit is reported with the lines around it, and the line feed that is missing is added. -/
theorem settle_eq (session : Session) (hkeeps : session.keepFinalNewline = true) {change : Change}
    (htext : session.text = change.edited) {delta : Int}
    (hpart : (Edit.ofText ⟨change.before.length + change.line.length, change.produced.length⟩
      delta).replacesAll session.text = false) :
    session.settle ⟨change.before.length + change.line.length, change.produced.length⟩ delta =
      ({ session with buffer := ⟨change.new⟩ },
        change.spans session.highlighter.classifier) := by
  have hreport := report_eq session hpart
  have hend := endLine_eq session hkeeps
  have hbuffer : session.buffer = ⟨change.edited⟩ := congrArg Buffer.mk htext
  unfold settle
  rw [hreport, hend, htext]
  unfold Change.spans Change.new Change.missing
  by_cases hended : change.edited.getLast? = some '\n'
  · rw [if_pos hended, if_pos hended, if_pos hended, List.append_nil, ← hbuffer]
  · rw [if_neg hended, if_neg hended, if_neg hended]

end Session

/-- A new session has the highlighter of its settings. -/
theorem Session.highlighter_ofSettings (settings : Settings) :
    (Session.ofSettings settings).highlighter = .ofSettings settings :=
  rfl

/-! ## Edits cut into pieces -/

/-- A change is a splice of a text, cut into the pieces around it. -/
structure Change.Cuts (change : Change) (splice : Splice) (text : Text) : Prop where
  old_eq : change.old = text
  edited_eq : change.edited = splice.apply text
  start_eq : change.before.length + change.line.length = splice.start
  stop_eq : change.before.length + change.line.length + change.removed.length = splice.stop
  produced_eq : change.produced = splice.inserted
  behind_eq : change.behind = text.drop splice.stop

namespace Change

/-- Every splice that fits a text can be cut. -/
theorem exists_cuts {splice : Splice} {text : Text} (h : splice.Fits text) :
    ∃ change : Change, change.Cuts splice text := by
  have hstart := h.start_le
  have hstop := h.stop_le
  obtain ⟨before, line, hsplit, hbefore, hline⟩ :=
    Text.exists_lastLine (text.take splice.start)
  have hlength := congrArg List.length hsplit
  rw [List.length_take, List.length_append, Nat.min_eq_left (Nat.le_trans hstart hstop)] at hlength
  have hremoved : ((text.take splice.stop).drop splice.start).length =
      splice.stop - splice.start := by
    rw [List.length_drop, List.length_take, Nat.min_eq_left hstop]
  have htake : text.take splice.start ++ (text.take splice.stop).drop splice.start =
      text.take splice.stop := by
    have htaken : (text.take splice.stop).take splice.start = text.take splice.start := by
      rw [List.take_take, Nat.min_eq_left hstart]
    rw [← htaken, List.take_append_drop]
  refine ⟨⟨before, line, (text.take splice.stop).drop splice.start, splice.inserted,
    text.drop splice.stop, hbefore, hline⟩, ?_, ?_, hlength.symm, ?_, rfl, rfl⟩
  · unfold old
    dsimp only
    rw [← List.append_assoc, ← hsplit, ← List.append_assoc, htake, List.take_append_drop]
  · unfold edited Splice.apply
    dsimp only
    rw [← List.append_assoc, ← hsplit]
  · dsimp only
    omega

theorem length_old (change : Change) :
    change.old.length = change.before.length + change.line.length + change.removed.length +
      change.behind.length := by
  unfold old
  simp only [List.length_append]
  omega

theorem length_edited (change : Change) :
    change.edited.length = change.before.length + change.line.length + change.produced.length +
      change.behind.length := by
  unfold edited
  simp only [List.length_append]
  omega

theorem length_new (change : Change) :
    change.new.length = change.edited.length + change.missing.length := by
  unfold new
  exact List.length_append

/-- The lines that are reported lie in the edited text. -/
theorem length_repainted_le (change : Change) :
    change.before.length + change.repainted.length ≤ change.edited.length := by
  obtain ⟨rest, hrest, -⟩ := Text.exists_lineTail change.line change.produced change.behind
  have hlength := congrArg List.length hrest
  have hedited := change.length_edited
  unfold repainted
  simp only [List.length_append] at hlength ⊢
  omega

/-- A line feed is missing only where the edit reaches the end of the text. -/
theorem missing_or_behind {change : Change} (hends : change.old.getLast? = some '\n') :
    change.missing = [] ∨ change.behind = [] := by
  by_cases hended : change.edited.getLast? = some '\n'
  · exact Or.inl (if_pos hended)
  · exact Or.inr (behind_eq_nil hends hended)

/-- How many characters are reported behind the line of the edit. -/
theorem length_repainted (change : Change) :
    change.repainted.length = change.line.length + (change.produced.length +
      (Text.lineTail change.produced change.behind).length) := by
  unfold repainted
  rw [List.length_append, List.length_append]

/-- Only a line feed leaves a part of the line behind it out of the report. -/
theorem produced_of_lineTail_le {change : Change} {i : Nat}
    (hover : (Text.lineTail change.produced change.behind).length ≤ i)
    (hline : i < (Text.firstLine change.behind).length) :
    change.produced.getLast? = some '\n' := by
  by_contra hfeed
  have htail : Text.lineTail change.produced change.behind = Text.firstLine change.behind := by
    unfold Text.lineTail
    rw [if_neg hfeed]
  rw [htail] at hover
  omega

/-- A character of the text after an edit stands before the line of the edit, on the lines that
are reported, or behind them. -/
theorem place_cases {change : Change} (hends : change.old.getLast? = some '\n') {i : Nat}
    (hi : i < change.new.length) :
    i < change.before.length ∨
      (change.before.length ≤ i ∧
        i < change.before.length + change.repainted.length + change.missing.length) ∨
      ∃ j < change.behind.length,
        (Text.lineTail change.produced change.behind).length ≤ j ∧
          i = change.before.length + change.line.length + change.produced.length + j := by
  have hnew := change.length_new
  have hedited := change.length_edited
  have hrepainted := change.length_repainted
  by_cases hbefore : i < change.before.length
  · exact Or.inl hbefore
  · by_cases hinside : i < change.before.length + change.repainted.length + change.missing.length
    · exact Or.inr (Or.inl ⟨Nat.le_of_not_lt hbefore, hinside⟩)
    · obtain ⟨j, rfl⟩ : ∃ j,
          i = change.before.length + change.line.length + change.produced.length + j :=
        Nat.exists_eq_add_of_le (by omega)
      refine Or.inr (Or.inr ⟨j, ?_, by omega, rfl⟩)
      rcases missing_or_behind hends with hmissing | hbehind
      · rw [hmissing, List.length_nil] at hnew
        omega
      · rw [hbehind, List.length_nil] at hedited
        omega

/-- The text after an edit ends with a line feed. -/
theorem getLast?_new (change : Change) : change.new.getLast? = some '\n' := by
  unfold new missing
  by_cases hended : change.edited.getLast? = some '\n'
  · rw [if_pos hended, List.append_nil, hended]
  · rw [if_neg hended, List.getLast?_concat]

end Change

/-! ## Single inputs -/

/-- What a result that was computed has. -/
theorem Except.exists_of_any {ε α : Type} {result : Except ε α} {holds : α → Prop}
    [DecidablePred holds]
    (h : result.toOption.any (fun value => decide (holds value)) = true) :
    ∃ value, result = .ok value ∧ holds value := by
  cases result with
  | error error => cases h
  | ok value => exact ⟨value, rfl, of_decide_eq_true h⟩

namespace View

variable {settings : Settings} {view next : View} {input : Input}

/-- A view is up to date if it has the style of every character of the whole text. -/
theorem upToDate_iff :
    view.UpToDate ↔ view.styles.length = view.session.text.length ∧
      ∀ i < view.session.text.length,
        view.styles[i]? = some (colorAt view.session.highlight i) := by
  have hsize : view.session.buffer.size = view.session.text.length := rfl
  have hcolor (i : Nat) (hi : i < view.session.text.length) :
      (Styles.paint (List.replicate view.session.buffer.size none) view.session.highlight)[i]? =
        some (colorAt view.session.highlight i) := by
    rw [Styles.getElem?_paint, List.getElem?_replicate, hsize, if_pos hi, Option.map_some,
      Option.or_none]
  unfold UpToDate
  constructor
  · intro hpaint
    rw [hpaint]
    refine ⟨?_, hcolor⟩
    rw [Styles.length_paint, List.length_replicate, hsize]
  · rintro ⟨hlength, hstyles⟩
    apply List.ext_getElem?
    intro i
    by_cases hi : i < view.session.text.length
    · rw [hstyles i hi, hcolor i hi]
    · rw [List.getElem?_eq_none (by omega), List.getElem?_eq_none]
      rw [Styles.length_paint, List.length_replicate, hsize]
      omega

/-- A text that was just opened is painted as a whole. -/
theorem upToDate_load (session : Session) (text : Text) : (load session text).UpToDate :=
  rfl

/-- A text that was just opened can be edited. -/
theorem ready_load {session : Session} (hhighlighter : session.highlighter = .ofSettings settings)
    (hkeeps : session.keepFinalNewline = true) (text : Text) :
    (load session text).session.Ready settings := by
  apply Session.ready_endLine
  · exact hhighlighter
  · exact hkeeps
  · exact Nat.zero_le _

/-- An input that is no edit changes nothing that is shown. -/
theorem step_of_splice?_eq_none (hready : view.session.Ready settings)
    (hstyles : view.styles.length = view.session.text.length)
    (hsplice : view.session.splice? input = none) :
    ∃ session, view.step input = .ok ⟨session, view.styles⟩ ∧ session.Ready settings ∧
      session.text = view.session.text := by
  have hpaint : Styles.paint view.styles [] = view.styles := rfl
  have hpad (session : Session) (htext : session.text = view.session.text) :
      view.styles ++ List.replicate (session.buffer.size - view.styles.length) none =
        view.styles := by
    have hsize : session.buffer.size = session.text.length := rfl
    rw [hsize, htext, hstyles, Nat.sub_self, List.replicate_zero, List.append_nil]
  have hstep {session : Session} (hperform : view.session.perform input = .ok (session, []))
      (htext : session.text = view.session.text) :
      view.step input = .ok ⟨session, view.styles⟩ := by
    unfold step
    rw [hperform, hsplice]
    simp only [bind, Except.bind, Option.map_none, Option.getD_none, hpad session htext, hpaint]
    rfl
  obtain ⟨caret, hcaret, hperform⟩ := Session.perform_of_splice?_none hready.caret_le hsplice
  exact ⟨_, hstep hperform rfl, ⟨hready.highlighter, hready.keeps, hcaret, hready.ends⟩, rfl⟩

/-- The view after an edit. -/
def splicedBy (view : View) (splice : Splice) (change : Change) : View where
  session := { view.session.splicedBy splice with buffer := ⟨change.new⟩ }
  styles := .paint (splice.carry view.styles ++ List.replicate change.missing.length none)
    (change.spans view.session.highlighter.classifier)

/-- After an edit every character of the edited text has a place in the styles. -/
theorem length_carry (hstyles : view.styles.length = view.session.text.length) {splice : Splice}
    {change : Change} (hcut : change.Cuts splice view.session.text) :
    (splice.carry view.styles).length = change.edited.length := by
  have hold := change.length_old
  have hedited := change.length_edited
  have hproduced := congrArg List.length hcut.produced_eq
  have hstart := hcut.start_eq
  have hstop := hcut.stop_eq
  rw [hcut.old_eq] at hold
  simp only [Splice.carry, List.length_append, List.length_take, List.length_replicate,
    List.length_drop]
  omega

/-- After an edit every character of the new text has a place in the styles. -/
theorem length_styles_splicedBy (hstyles : view.styles.length = view.session.text.length)
    {splice : Splice} {change : Change} (hcut : change.Cuts splice view.session.text) :
    (view.splicedBy splice change).styles.length = change.new.length := by
  unfold splicedBy
  dsimp only
  rw [Styles.length_paint, List.length_append, length_carry hstyles hcut, List.length_replicate,
    change.length_new]

/-- An edit, cut into pieces. -/
theorem step_of_splice? (hready : view.session.Ready settings)
    (hstyles : view.styles.length = view.session.text.length) {splice : Splice}
    (hsplice : view.session.splice? input = some splice) :
    ∃ change : Change, change.Cuts splice view.session.text ∧
      view.step input = .ok (view.splicedBy splice change) ∧
      (view.splicedBy splice change).session.Ready settings := by
  obtain ⟨hfits, delta, hperform, hpart⟩ := Session.perform_of_splice? hready hsplice
  obtain ⟨change, hcut⟩ := Change.exists_cuts hfits
  rw [← hcut.start_eq, ← hcut.produced_eq] at hperform hpart
  have htext : (view.session.splicedBy splice).text = change.edited := hcut.edited_eq.symm
  rw [Session.settle_eq (view.session.splicedBy splice) hready.keeps htext hpart] at hperform
  refine ⟨change, hcut, ?_, hready.highlighter, hready.keeps, ?_, change.getLast?_new⟩
  · unfold step
    rw [hperform, hsplice]
    simp only [bind, Except.bind, Option.map_some, Option.getD_some]
    rw [Buffer.size_mk, length_carry hstyles hcut, change.length_new, Nat.add_sub_cancel_left]
    rfl
  · have hcaret : (view.splicedBy splice change).session.caret =
        splice.start + splice.inserted.length := rfl
    have hnew : (view.splicedBy splice change).session.text = change.new := rfl
    rw [hcaret, hnew, change.length_new, change.length_edited, ← hcut.start_eq,
      ← hcut.produced_eq]
    omega

theorem ends_old (hready : view.session.Ready settings) {splice : Splice} {change : Change}
    (hcut : change.Cuts splice view.session.text) : change.old.getLast? = some '\n' := by
  rw [hcut.old_eq]
  exact hready.ends

/-- The lines that an edit reports have the styles of the whole text. -/
theorem colorAt_spans_splicedBy (hready : view.session.Ready settings) {splice : Splice}
    {change : Change} (hcut : change.Cuts splice view.session.text)
    (hunbroken : (view.splicedBy splice change).Unbroken) (offset : Nat) :
    colorAt (change.spans view.session.highlighter.classifier) offset =
      if change.before.length ≤ offset ∧
          offset < change.before.length + change.repainted.length + change.missing.length then
        colorAt (view.splicedBy splice change).session.highlight offset
      else none := by
  have hclassifier := hready.classifier_eq
  have hclassifier' : (view.splicedBy splice change).session.highlighter.classifier =
      Classifier.ofSettings settings := hclassifier
  unfold Unbroken at hunbroken
  rw [hclassifier'] at hunbroken
  rw [Session.highlight_eq, hclassifier', hclassifier]
  exact Change.colorAt_spans (ends_old hready hcut) hunbroken offset

/-- Every character of a text has a style. -/
theorem exists_colorAt_highlight {session : Session} (hready : session.Ready settings)
    {offset : Nat} (h : offset < session.text.length) :
    ∃ style, colorAt session.highlight offset = some style := by
  rw [Session.highlight_eq, hready.classifier_eq, Classifier.colorAt_highlight h]
  cases colorAt ((Classifier.ofSettings settings).overlays session.text) offset with
  | none => exact ⟨_, rfl⟩
  | some style => exact ⟨style, rfl⟩

/-! ## The styles after an edit -/

section

variable (hready : view.session.Ready settings) (hdate : view.UpToDate) {splice : Splice}
  {change : Change} (hcut : change.Cuts splice view.session.text)
  (hnext : (view.splicedBy splice change).session.Ready settings)
  (hunbroken : view.Unbroken) (hunbroken' : (view.splicedBy splice change).Unbroken)

include hready hunbroken in
theorem unbroken_old (htext : change.old = view.session.text) :
    (Classifier.ofSettings settings).Unbroken change.old := by
  unfold Unbroken at hunbroken
  rw [hready.classifier_eq, ← htext] at hunbroken
  exact hunbroken

include hready hunbroken' in
theorem unbroken_new : (Classifier.ofSettings settings).Unbroken change.new := by
  have hclassifier : (view.splicedBy splice change).session.highlighter.classifier =
      Classifier.ofSettings settings := hready.classifier_eq
  unfold Unbroken at hunbroken'
  rw [hclassifier] at hunbroken'
  exact hunbroken'

include hready in
theorem highlight_splicedBy : (view.splicedBy splice change).session.highlight =
    (Classifier.ofSettings settings).highlight change.new := by
  have hclassifier : (view.splicedBy splice change).session.highlighter.classifier =
      Classifier.ofSettings settings := hready.classifier_eq
  rw [Session.highlight_eq, hclassifier]
  rfl

include hready in
theorem highlight_old (htext : change.old = view.session.text) : view.session.highlight =
    (Classifier.ofSettings settings).highlight change.old := by
  rw [Session.highlight_eq, hready.classifier_eq, htext]

include hready hdate hcut hunbroken hunbroken' in
/-- Before the line of the edit the styles are those of the new text. -/
theorem getElem?_styles_before {i : Nat} (hi : i < change.before.length) :
    (view.splicedBy splice change).styles[i]? =
      some (colorAt (view.splicedBy splice change).session.highlight i) := by
  have hstart := hcut.start_eq
  have hold := change.length_old
  rw [hcut.old_eq] at hold
  obtain ⟨hlength, hstyles⟩ := upToDate_iff.mp hdate
  have hcarried : (splice.carry view.styles ++ List.replicate change.missing.length none)[i]? =
      view.styles[i]? := by
    have htake : i < (view.styles.take splice.start).length := by
      rw [List.length_take]
      omega
    unfold Splice.carry
    rw [List.append_assoc, List.getElem?_append_left htake, List.getElem?_take_of_lt (by omega)]
  have hspans := colorAt_spans_splicedBy hready hcut hunbroken' i
  rw [if_neg (by omega)] at hspans
  have hsame := Change.colorAt_before (unbroken_old hready hunbroken hcut.old_eq)
    (unbroken_new hready hunbroken') hi
  have hpaint := Styles.getElem?_paint
    (splice.carry view.styles ++ List.replicate change.missing.length none)
    (change.spans view.session.highlighter.classifier) i
  rw [hcarried, hspans, hstyles i (by omega), Option.map_some, Option.none_or,
    highlight_old hready hcut.old_eq, ← hsame, ← highlight_splicedBy hready] at hpaint
  exact hpaint

include hready hdate hcut hunbroken' hnext in
/-- The lines that are reported are repainted. -/
theorem getElem?_styles_repainted {i : Nat} (hi : change.before.length ≤ i)
    (hi' : i < change.before.length + change.repainted.length + change.missing.length) :
    (view.splicedBy splice change).styles[i]? =
      some (colorAt (view.splicedBy splice change).session.highlight i) := by
  have hnew : (view.splicedBy splice change).session.text = change.new := rfl
  have hlength := change.length_new
  have hle := change.length_repainted_le
  have hin : i < (view.splicedBy splice change).session.text.length := by
    rw [hnew]
    omega
  obtain ⟨style, hstyle⟩ := exists_colorAt_highlight hnext hin
  have hspans := colorAt_spans_splicedBy hready hcut hunbroken' i
  rw [if_pos ⟨hi, hi'⟩, hstyle] at hspans
  have hcarried : i < (splice.carry view.styles ++
      List.replicate change.missing.length none).length := by
    rw [List.length_append, length_carry (upToDate_iff.mp hdate).1 hcut, List.length_replicate]
    omega
  have hpaint := Styles.getElem?_paint
    (splice.carry view.styles ++ List.replicate change.missing.length none)
    (change.spans view.session.highlighter.classifier) i
  rw [hspans, List.getElem?_eq_getElem hcarried, Option.map_some, Option.some_or] at hpaint
  rw [hstyle]
  exact hpaint

include hready hdate hcut hunbroken' in
/-- Behind these lines the styles are those that the old text had. -/
theorem getElem?_styles_behind {i : Nat} (hi : i < change.behind.length)
    (hover : (Text.lineTail change.produced change.behind).length ≤ i) :
    (view.splicedBy splice change).styles[splice.start + splice.inserted.length + i]? =
      some (colorAt view.session.highlight (splice.stop + i)) := by
  have hstart := hcut.start_eq
  have hstop := hcut.stop_eq
  have hproduced := congrArg List.length hcut.produced_eq
  have hold := change.length_old
  rw [hcut.old_eq] at hold
  have hmissing : change.missing = [] := by
    apply (Change.missing_or_behind (ends_old hready hcut)).resolve_right
    exact List.ne_nil_of_length_pos (Nat.zero_lt_of_lt hi)
  have hrepainted := change.length_repainted
  obtain ⟨hlength, hstyles⟩ := upToDate_iff.mp hdate
  have hcarried : (splice.carry view.styles ++ List.replicate change.missing.length none)[
      splice.start + splice.inserted.length + i]? = view.styles[splice.stop + i]? := by
    have htake : (view.styles.take splice.start).length = splice.start := by
      rw [List.length_take]
      omega
    unfold Splice.carry
    rw [hmissing, List.length_nil, List.replicate_zero, List.append_nil,
      List.getElem?_append_right (by omega), htake,
      List.getElem?_append_right (by rw [List.length_replicate]; omega), List.length_replicate,
      List.getElem?_drop]
    congr 1
    omega
  have hspans := colorAt_spans_splicedBy hready hcut hunbroken'
    (splice.start + splice.inserted.length + i)
  rw [hmissing, List.length_nil, if_neg (by omega)] at hspans
  have hpaint := Styles.getElem?_paint
    (splice.carry view.styles ++ List.replicate change.missing.length none)
    (change.spans view.session.highlighter.classifier)
    (splice.start + splice.inserted.length + i)
  rw [hcarried, hspans, hstyles _ (by omega), Option.map_some, Option.none_or] at hpaint
  exact hpaint

include hready hdate hcut hunbroken hunbroken' in
/-- Behind the line that the edit reaches into these are the styles of the new text. -/
theorem getElem?_styles_later {i : Nat} (hi : i < change.behind.length)
    (hover : (Text.lineTail change.produced change.behind).length ≤ i)
    (hline : (Text.firstLine change.behind).length ≤ i) :
    (view.splicedBy splice change).styles[splice.start + splice.inserted.length + i]? =
      some (colorAt (view.splicedBy splice change).session.highlight
        (splice.start + splice.inserted.length + i)) := by
  have hsame := Change.colorAt_behind (ends_old hready hcut)
    (unbroken_old hready hunbroken hcut.old_eq) (unbroken_new hready hunbroken') hi hline
  rw [hcut.stop_eq, hcut.start_eq, hcut.produced_eq, ← highlight_old hready hcut.old_eq,
    ← highlight_splicedBy hready] at hsame
  rw [getElem?_styles_behind hready hdate hcut hunbroken' hi hover, hsame]

include hready hdate hcut hunbroken hunbroken' hnext in
/-- After an edit a view is up to date if what a line feed left behind keeps its styles. -/
theorem upToDate_splicedBy_iff :
    (view.splicedBy splice change).UpToDate ↔
      (splice.inserted.getLast? = some '\n' →
        ∀ i < (Text.firstLine (view.session.text.drop splice.stop)).length,
          colorAt (view.splicedBy splice change).session.highlight
              (splice.start + splice.inserted.length + i) =
            colorAt view.session.highlight (splice.stop + i)) := by
  have hnew : (view.splicedBy splice change).session.text = change.new := rfl
  rw [upToDate_iff, hnew, ← hcut.behind_eq]
  constructor
  · rintro ⟨-, hstyles⟩ hfeed i hi
    have hover : (Text.lineTail change.produced change.behind).length ≤ i := by
      unfold Text.lineTail
      rw [hcut.produced_eq, if_pos hfeed]
      exact Nat.zero_le i
    obtain ⟨rest, hrest, -⟩ := Text.exists_firstLine change.behind
    have hfirst := congrArg List.length hrest
    rw [List.length_append] at hfirst
    have hlt : i < change.behind.length := by omega
    have hlength := change.length_new
    have hedited := change.length_edited
    rw [hcut.start_eq, hcut.produced_eq] at hedited
    have hbehind := getElem?_styles_behind hready hdate hcut hunbroken' hlt hover
    rw [hstyles _ (by omega)] at hbehind
    exact Option.some.inj hbehind
  · intro hkeeps
    refine ⟨length_styles_splicedBy (upToDate_iff.mp hdate).1 hcut, ?_⟩
    intro i hi
    rcases Change.place_cases (ends_old hready hcut) hi with
      hbefore | ⟨hfrom, hto⟩ | ⟨j, hj, hover, rfl⟩
    · exact getElem?_styles_before hready hdate hcut hunbroken hunbroken' hbefore
    · exact getElem?_styles_repainted hready hdate hcut hnext hunbroken' hfrom hto
    · rw [hcut.start_eq, hcut.produced_eq]
      by_cases hline : j < (Text.firstLine change.behind).length
      · have hfeed := Change.produced_of_lineTail_le hover hline
        rw [hcut.produced_eq] at hfeed
        rw [getElem?_styles_behind hready hdate hcut hunbroken' hj hover, hkeeps hfeed j hline]
      · exact getElem?_styles_later hready hdate hcut hunbroken hunbroken' hj hover
          (Nat.le_of_not_lt hline)

end

/-- When one input leaves a view up to date. -/
theorem upToDate_step_iff (hready : view.session.Ready settings) (hdate : view.UpToDate)
    (hstep : view.step input = .ok next) (hunbroken : view.Unbroken)
    (hunbroken' : next.Unbroken) : next.UpToDate ↔ view.KeepsTail input next := by
  have hstyles := (upToDate_iff.mp hdate).1
  cases hsplice : view.session.splice? input with
  | none =>
    obtain ⟨session, hstep', hready', htext⟩ := step_of_splice?_eq_none hready hstyles hsplice
    rw [hstep'] at hstep
    obtain rfl := Except.ok.inj hstep
    have hhighlight : session.highlight = view.session.highlight := by
      rw [Session.highlight_eq, Session.highlight_eq, hready'.classifier_eq,
        hready.classifier_eq, htext]
    constructor
    · intro _ splice hsome
      rw [hsplice] at hsome
      cases hsome
    · intro _
      rw [upToDate_iff] at hdate ⊢
      dsimp only
      rw [htext, hhighlight]
      exact hdate
  | some splice =>
    obtain ⟨change, hcut, hstep', hready'⟩ := step_of_splice? hready hstyles hsplice
    rw [hstep'] at hstep
    obtain rfl := Except.ok.inj hstep
    rw [upToDate_splicedBy_iff hready hdate hcut hready' hunbroken hunbroken']
    unfold KeepsTail
    constructor
    · intro hkeeps splice' hsplice'
      rw [hsplice] at hsplice'
      obtain rfl := Option.some.inj hsplice'
      exact hkeeps
    · intro hkeeps
      exact hkeeps splice hsplice

/-- Every input is answered. -/
theorem exists_step (hready : view.session.Ready settings)
    (hstyles : view.styles.length = view.session.text.length) (input : Input) :
    ∃ next, view.step input = .ok next ∧ next.session.Ready settings ∧
      next.styles.length = next.session.text.length := by
  cases hsplice : view.session.splice? input with
  | none =>
    obtain ⟨session, hstep, hready', htext⟩ := step_of_splice?_eq_none hready hstyles hsplice
    refine ⟨_, hstep, hready', ?_⟩
    rw [htext]
    exact hstyles
  | some splice =>
    obtain ⟨change, hcut, hstep, hready'⟩ := step_of_splice? hready hstyles hsplice
    exact ⟨_, hstep, hready', length_styles_splicedBy hstyles hcut⟩

/-! ## Runs -/

/-- Every run of inputs is answered. -/
theorem exists_run (hready : view.session.Ready settings)
    (hstyles : view.styles.length = view.session.text.length) (inputs : List Input) :
    ∃ views, view.run inputs = .ok views := by
  induction inputs generalizing view with
  | nil => exact ⟨[], rfl⟩
  | cons input inputs ih =>
    obtain ⟨next, hstep, hready', hstyles'⟩ := exists_step hready hstyles input
    obtain ⟨views, hrun⟩ := ih hready' hstyles'
    refine ⟨next :: views, ?_⟩
    unfold run
    rw [hstep]
    simp only [bind, Except.bind, hrun]
    rfl

/-- The views of a run are the view after its first input and those of the rest. -/
theorem run_cons {inputs : List Input} {views : List View}
    (h : view.run (input :: inputs) = .ok views) :
    ∃ next later, view.step input = .ok next ∧ next.run inputs = .ok later ∧
      views = next :: later := by
  unfold run at h
  cases hstep : view.step input with
  | error error =>
    rw [hstep] at h
    cases h
  | ok next =>
    rw [hstep] at h
    simp only [bind, Except.bind] at h
    cases hrun : next.run inputs with
    | error error =>
      rw [hrun] at h
      cases h
    | ok later =>
      rw [hrun] at h
      exact ⟨next, later, rfl, hrun, (Except.ok.inj h).symm⟩

/-- When a run of inputs keeps a view up to date. -/
theorem upToDate_iff_of_run (hready : view.session.Ready settings) (hdate : view.UpToDate)
    {inputs : List Input} {views : List View} (hrun : view.run inputs = .ok views)
    (hunbroken : ∀ later ∈ view :: views, later.Unbroken) :
    (∀ later ∈ views, later.UpToDate) ↔ view.KeepsTails inputs views := by
  induction inputs generalizing view views with
  | nil =>
    obtain rfl := Except.ok.inj hrun
    unfold KeepsTails
    simp
  | cons input inputs ih =>
    obtain ⟨next, later, hstep, hlater, rfl⟩ := run_cons hrun
    obtain ⟨next', hstep', hready', -⟩ := exists_step hready (upToDate_iff.mp hdate).1 input
    rw [hstep] at hstep'
    obtain rfl := Except.ok.inj hstep'
    have hview := List.forall_mem_cons.mp hunbroken
    have hnext := List.forall_mem_cons.mp hview.2
    have hone := upToDate_step_iff hready hdate hstep hview.1 hnext.1
    unfold KeepsTails
    rw [List.forall_mem_cons, ← hone]
    constructor
    · rintro ⟨hdate', hlaters⟩
      exact ⟨hdate', (ih hready' hdate' hlater hview.2).mp hlaters⟩
    · rintro ⟨hdate', hkeeps⟩
      exact ⟨hdate', (ih hready' hdate' hlater hview.2).mpr hkeeps⟩

/--
A run of inputs from a text that was just opened is answered, and if no token runs over the
end of a line on the way, it keeps the view up to date exactly if every edit that ends with a
line feed leaves the styles of the rest of the line as they are.
-/
theorem upToDate_run_iff {session : Session}
    (hhighlighter : session.highlighter = .ofSettings settings)
    (hkeeps : session.keepFinalNewline = true) (text : Text) (inputs : List Input) :
    ∃ views, (load session text).run inputs = .ok views ∧
      ((∀ view ∈ load session text :: views, view.Unbroken) →
        ((∀ view ∈ load session text :: views, view.UpToDate) ↔
          (load session text).KeepsTails inputs views)) := by
  have hready := ready_load hhighlighter hkeeps text
  have hdate := upToDate_load session text
  obtain ⟨views, hrun⟩ := exists_run hready (upToDate_iff.mp hdate).1 inputs
  refine ⟨views, hrun, ?_⟩
  intro hunbroken
  rw [List.forall_mem_cons]
  constructor
  · rintro ⟨-, hlaters⟩
    exact (upToDate_iff_of_run hready hdate hrun hunbroken).mp hlaters
  · intro htails
    exact ⟨hdate, (upToDate_iff_of_run hready hdate hrun hunbroken).mpr htails⟩

/-- A letter that is typed into a comment. -/
theorem upToDate_run_letter :
    (Session.ofSettings .standard).highlighter = .ofSettings .standard ∧
      (Session.ofSettings .standard).keepFinalNewline = true ∧
      ∃ views, (load (.ofSettings .standard) "//if".toList).run [.setCaret 2, .typeChar 'x'] =
          .ok views ∧
        (∀ view ∈ load (.ofSettings .standard) "//if".toList :: views, view.Unbroken) ∧
        ((∀ view ∈ load (.ofSettings .standard) "//if".toList :: views, view.UpToDate) ↔
          (load (.ofSettings .standard) "//if".toList).KeepsTails
            [.setCaret 2, .typeChar 'x'] views) := by
  have hhighlighter := Session.highlighter_ofSettings .standard
  have hkeeps : (Session.ofSettings .standard).keepFinalNewline = true := rfl
  have hunbroken : ∃ views, (load (.ofSettings .standard) "//if".toList).run
      [.setCaret 2, .typeChar 'x'] = .ok views ∧
        ∀ view ∈ load (.ofSettings .standard) "//if".toList :: views, view.Unbroken := by
    apply Except.exists_of_any
    decide +kernel
  obtain ⟨views, hrun, hviews⟩ := hunbroken
  obtain ⟨views', hrun', hiff⟩ := upToDate_run_iff hhighlighter hkeeps "//if".toList
    [.setCaret 2, .typeChar 'x']
  obtain rfl := Except.ok.inj (hrun.symm.trans hrun')
  exact ⟨hhighlighter, hkeeps, views, hrun, hviews, hiff hviews⟩

/-- A line feed that is typed into a comment leaves the keyword behind it in the old style. -/
theorem not_upToDate_run_newline :
    ∃ views, (load (.ofSettings .standard) "//if".toList).run [.setCaret 2, .typeChar '\n'] =
        .ok views ∧
      (∀ view ∈ load (.ofSettings .standard) "//if".toList :: views, view.Unbroken) ∧
      ¬ ∀ view ∈ load (.ofSettings .standard) "//if".toList :: views, view.UpToDate := by
  apply Except.exists_of_any
  decide +kernel

end View

end ScratchEditor

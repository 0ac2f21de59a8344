import ScratchEditor.Editor.Gutter
import ScratchEditor.Proofs.Text.LineExtents
import ScratchEditor.Proofs.Text.Spots

/-!
# The rows of the gutter

The gutter shows a block of lines.  It begins with the line that holds the beginning of the view,
which is always there, and goes on with the lines that begin in the view and with the empty line
at the end of the text if the view reaches it.  As later lines begin later, no line is left out in
between, and counting on from the first number gives every row the number of its line.

Main definitions:

- `inView`: whether a line is reached by the view and shown.
- `GutterBlock`: what the rows beside a view are.

Main results:

- `linesInView_eq`: the lines in view are a block of the lines of the text.
- `gutterBlock_gutterRows`: the rows are those of the block.
- `gutterRows_block`: the rows of any view, and the marked row if the whole text is in view.
-/

namespace ScratchEditor

/-! ## Beginnings of lists -/

section Beginnings

variable {α : Type} {takes keeps : α → Bool} {l : List α}

/-- If a list keeps nothing behind an element that it does not keep, filtering a beginning of it
gives a beginning. -/
theorem filter_takeWhile_eq
    (h : l.Pairwise fun a b => takes b = true → keeps b = true → keeps a = true) :
    (l.takeWhile takes).filter keeps = l.takeWhile fun x => takes x && keeps x := by
  induction l with
  | nil => rfl
  | cons a l ih =>
    obtain ⟨hfirst, hrest⟩ := List.pairwise_cons.mp h
    by_cases htakes : takes a = true
    · rw [List.takeWhile_cons_of_pos htakes]
      by_cases hkeeps : keeps a = true
      · rw [List.filter_cons_of_pos hkeeps, List.takeWhile_cons_of_pos (by simp [htakes, hkeeps]),
          ih hrest]
      · rw [List.filter_cons_of_neg hkeeps, List.takeWhile_cons_of_neg (by simp [hkeeps]),
          List.filter_eq_nil_iff]
        intro b hb hkeepsB
        have htakesB := List.all_eq_true.mp List.all_takeWhile b hb
        exact hkeeps (hfirst b ((List.takeWhile_sublist _).subset hb) htakesB hkeepsB)
    · rw [List.takeWhile_cons_of_neg htakes, List.takeWhile_cons_of_neg (by simp [htakes])]
      rfl

/-- An element is in the beginning that has a property if it has the property. -/
theorem lt_length_takeWhile_iff (h : l.Pairwise fun a b => takes b = true → takes a = true)
    {i : Nat} {x : α} (hx : l[i]? = some x) :
    i < (l.takeWhile takes).length ↔ takes x = true := by
  induction l generalizing i with
  | nil => cases hx
  | cons a l ih =>
    obtain ⟨hfirst, hrest⟩ := List.pairwise_cons.mp h
    by_cases htakes : takes a = true
    · rw [List.takeWhile_cons_of_pos htakes, List.length_cons]
      cases i with
      | zero =>
        obtain rfl := Option.some.inj hx
        exact iff_of_true (Nat.succ_pos _) htakes
      | succ i =>
        rw [Nat.add_lt_add_iff_right]
        exact ih hrest hx
    · rw [List.takeWhile_cons_of_neg htakes]
      refine iff_of_false (Nat.not_lt_zero _) ?_
      cases i with
      | zero =>
        obtain rfl := Option.some.inj hx
        exact htakes
      | succ i => exact fun hlater => htakes (hfirst x (List.mem_of_getElem? hx) hlater)

/-- A filter that keeps the element with one index keeps nothing else. -/
theorem filter_eq_singleton {i : Nat} {x : α} (hx : l[i]? = some x)
    (h : ∀ j y, l[j]? = some y → (keeps y = true ↔ j = i)) : l.filter keeps = [x] := by
  induction l generalizing i with
  | nil => cases hx
  | cons a l ih =>
    cases i with
    | zero =>
      obtain rfl := Option.some.inj hx
      rw [List.filter_cons_of_pos ((h 0 a rfl).mpr rfl), List.filter_eq_nil_iff.mpr]
      intro y hy hkeeps
      obtain ⟨j, hj⟩ := List.getElem?_of_mem hy
      exact absurd ((h (j + 1) y hj).mp hkeeps) (Nat.succ_ne_zero j)
    | succ i =>
      rw [List.filter_cons_of_neg fun hkeeps => absurd ((h 0 a rfl).mp hkeeps)
        (Nat.succ_ne_zero i).symm]
      apply ih hx
      intro j y hy
      rw [h (j + 1) y hy, Nat.add_right_cancel_iff]

end Beginnings

/-! ## Lines in view -/

variable {text : Text} {view : Extent} {selections : List Extent}

/-- Whether a line is reached and shown. -/
def inView (size : Nat) (view line : Extent) : Bool :=
  decide (line.start ≤ view.reach size) && showsLine size view line

/-- A line before one that is shown is shown too. -/
theorem pairwise_inView (text : Text) (view : Extent) (first : Nat) :
    (text.lineExtents.drop first).Pairwise fun a b =>
      inView text.length view b = true → inView text.length view a = true := by
  have hstarts := text.pairwise_lineExtents.sublist (List.drop_sublist first text.lineExtents)
  refine hstarts.imp ?_
  intro a b hlt hshown
  simp only [inView, showsLine, Bool.and_eq_true, Bool.or_eq_true, decide_eq_true_eq] at hshown ⊢
  omega

/-- The lines in view are a beginning of the lines from the first one on. -/
theorem linesInView_eq (text : Text) (view : Extent) :
    linesInView text view =
      (text.lineExtents.drop (text.linesAbove view.start)).takeWhile
        (inView text.length view) := by
  have hstarts := text.pairwise_lineExtents.sublist
    (List.drop_sublist (text.linesAbove view.start) text.lineExtents)
  unfold linesInView
  rw [Text.lineNumberAt_eq, Nat.add_sub_cancel, filter_takeWhile_eq]
  · rfl
  · refine hstarts.imp ?_
    intro a b hlt hreached hshown
    have hreached : b.start ≤ view.reach text.length := of_decide_eq_true hreached
    simp only [showsLine, Bool.or_eq_true, decide_eq_true_eq]
    omega

/-- The line that holds the beginning of the view is shown. -/
theorem inView_of_holds (hview : view.Fits) {line : Extent} (h : line.start ≤ view.start) :
    inView text.length view line = true := by
  have hstop : view.start ≤ view.stop := Nat.le_add_right _ _
  simp only [inView, showsLine, hview.reach_eq, Bool.and_eq_true, Bool.or_eq_true,
    decide_eq_true_eq, beq_iff_eq]
  omega

/-- A later line is shown if it begins in the view, or if it is the empty one at the end of the
text and the view reaches that. -/
theorem inView_iff (hview : view.Fits) {index : Nat} {line : Extent}
    (hlater : text.linesAbove view.start < index)
    (hline : text.lineExtents[index]? = some line) :
    inView text.length view line = true ↔
      line.start < view.stop ∨ line.isEmpty = true ∧ text.length ≤ view.stop := by
  have hbehind : line.start ≠ view.start := by
    intro hsame
    have hholds := Text.lineHolds_start hline
    rw [Text.lineHolds_iff (Text.start_le_length hline), hsame] at hholds
    omega
  have hempty : line.isEmpty = true → line.start = text.length := Text.start_of_isEmpty hline
  simp only [inView, showsLine, hview.reach_eq, Bool.and_eq_true, Bool.or_eq_true,
    decide_eq_true_eq, beq_iff_eq]
  constructor
  · rintro ⟨hreached, (hbegins | hsame) | ⟨hnone, hend⟩⟩
    · exact Or.inl hbegins
    · exact absurd hsame hbehind
    · exact Or.inr ⟨hnone, hend ▸ hreached⟩
  · rintro (hbegins | ⟨hnone, hreached⟩)
    · exact ⟨Nat.le_of_lt hbegins, Or.inl (Or.inl hbegins)⟩
    · exact ⟨(hempty hnone).symm ▸ hreached, Or.inr ⟨hnone, hempty hnone⟩⟩

theorem linesInView_prefix (text : Text) (view : Extent) :
    linesInView text view <+: text.lineExtents.drop (text.linesAbove view.start) := by
  rw [linesInView_eq]
  exact List.takeWhile_prefix _

/-- The first line in view holds the beginning of the view, or the end of the text if the view
begins past it. -/
theorem lineHolds_view (text : Text) (view : Extent) :
    text.LineHolds (text.linesAbove view.start) (min view.start text.length) := by
  rw [← text.linesAbove_min]
  exact Text.lineHolds_linesAbove (Nat.min_le_right _ _)

/-- From the first line in view on, a line is in view if it is shown itself. -/
theorem lt_length_linesInView_iff {i : Nat} {line : Extent}
    (hline : text.lineExtents[text.linesAbove view.start + i]? = some line) :
    i < (linesInView text view).length ↔ inView text.length view line = true := by
  rw [linesInView_eq]
  exact lt_length_takeWhile_iff (pairwise_inView text view _) (by rw [List.getElem?_drop, hline])

/-- Some line is in view, wherever the view begins. -/
theorem length_linesInView_pos (text : Text) (hview : view.Fits) :
    0 < (linesInView text view).length := by
  obtain ⟨line, hline, hholds⟩ := lineHolds_view text view
  have hstart : line.start ≤ view.start := by
    have hinside := Text.start_le_length hline
    simp only [Extent.holds, Bool.and_eq_true, decide_eq_true_eq] at hholds
    omega
  rw [lt_length_linesInView_iff hline]
  exact inView_of_holds hview hstart

/-- The lines in view are lines of the text, one behind the other. -/
theorem getElem?_of_linesInView {i : Nat} {line : Extent}
    (h : (linesInView text view)[i]? = some line) :
    text.lineExtents[text.linesAbove view.start + i]? = some line := by
  obtain ⟨rest, hrest⟩ := linesInView_prefix text view
  have hlt := (List.getElem?_eq_some_iff.mp h).1
  rw [← List.getElem?_drop, ← hrest, List.getElem?_append_left hlt, h]

/-! ## Rows -/

/-- Rows are numbered on from the first one, and the last of them is known as such. -/
theorem getElem?_numberRows (size : Nat) (selections : List Extent) (number : Nat)
    (lines : List Extent) (i : Nat) :
    (numberRows size selections number lines)[i]? =
      lines[i]?.map fun line =>
        ⟨number + i, line, selections.any (marksLine size line (i + 1 == lines.length))⟩ := by
  induction lines generalizing number i with
  | nil => rfl
  | cons line lines ih =>
    cases i with
    | zero =>
      have hlast : lines.isEmpty = (0 + 1 == (line :: lines).length) := by
        cases lines <;> rfl
      rw [numberRows, hlast]
      rfl
    | succ i =>
      rw [numberRows, List.getElem?_cons_succ, List.getElem?_cons_succ, ih, List.length_cons,
        Nat.add_assoc, Nat.add_comm 1 i]
      congr 1
      funext later
      have hlast : (i + 1 == lines.length) = (i + 1 + 1 == lines.length + 1) := by
        rw [Bool.eq_iff_iff, beq_iff_eq, beq_iff_eq, Nat.add_right_cancel_iff]
      rw [hlast]

theorem map_extent_numberRows (size : Nat) (selections : List Extent) (number : Nat)
    (lines : List Extent) : (numberRows size selections number lines).map (·.extent) = lines := by
  apply List.ext_getElem?
  intro i
  rw [List.getElem?_map, getElem?_numberRows, Option.map_map]
  exact Option.map_id'

/-- A row shows a line in view, with its number and its mark. -/
theorem eq_of_gutterRows {i : Nat} {row : GutterRow}
    (h : (gutterRows text view selections)[i]? = some row) :
    ∃ line, (linesInView text view)[i]? = some line ∧
      row = ⟨text.lineNumberAt view.start + i, line, selections.any
        (marksLine text.length line (i + 1 == (linesInView text view).length))⟩ := by
  rw [gutterRows, getElem?_numberRows] at h
  obtain ⟨line, hline, rfl⟩ := Option.map_eq_some_iff.mp h
  exact ⟨line, hline, rfl⟩

/-- Counting on from the first number gives a row the number of its line. -/
theorem number_of_linesInView {i : Nat} {line : Extent}
    (h : (linesInView text view)[i]? = some line) :
    text.lineNumberAt view.start + i = text.lineNumberAt line.start := by
  have hline := getElem?_of_linesInView h
  have hindex := (Text.lineHolds_iff (Text.start_le_length hline)).mp (Text.lineHolds_start hline)
  rw [Text.lineNumberAt_eq, Text.lineNumberAt_eq, ← hindex]
  omega

/-- Two extents overlap if some offset is held by both, when they end where they end. -/
theorem Extent.overlaps_iff {size : Nat} {a b : Extent} (ha : a.reach size = a.stop)
    (hb : b.reach size = b.stop) :
    a.overlaps size b = true ↔ ∃ offset, a.holds offset = true ∧ b.holds offset = true := by
  simp only [overlaps, ha, hb, holds, isEmpty, Bool.and_eq_true, Bool.not_eq_true',
    decide_eq_true_eq, beq_eq_false_iff_ne]
  unfold stop
  constructor
  · rintro ⟨⟨⟨ha, hb⟩, hab⟩, hba⟩
    exact ⟨max a.start b.start, by omega, by omega⟩
  · rintro ⟨offset, ha, hb⟩
    omega

/-- A line is marked by a caret on it, by a caret at the end or past it if the line is the last
one in view, and by a selection that shares a character with it. -/
theorem any_marksLine_iff
    (hselections : ∀ selection ∈ selections, selection.isEmpty = false → selection.Fits)
    {size : Nat} {line : Extent} (hline : line.stop ≤ size) {isLast : Bool} :
    selections.any (marksLine size line isLast) = true ↔
      (∃ caret ∈ selections, caret.isEmpty = true ∧ line.holds caret.start = true) ∨
      (∃ caret ∈ selections, caret.isEmpty = true ∧ size ≤ caret.start ∧ isLast = true) ∨
      ∃ selection ∈ selections, selection.isEmpty = false ∧
        ∃ offset, selection.holds offset = true ∧ line.holds offset = true := by
  have hoverlaps (selection : Extent) (hmem : selection ∈ selections)
      (hsome : selection.isEmpty = false) :=
    Extent.overlaps_iff ((hselections selection hmem hsome).reach_eq size)
      (Extent.reach_of_le hline)
  rw [List.any_eq_true]
  constructor
  · rintro ⟨selection, hmem, hmarks⟩
    unfold marksLine at hmarks
    by_cases hempty : selection.isEmpty = true
    · rw [if_pos hempty, Bool.or_eq_true, Bool.and_eq_true, decide_eq_true_eq] at hmarks
      rcases hmarks with hholds | ⟨hpast, hlast⟩
      · exact Or.inl ⟨selection, hmem, hempty, hholds⟩
      · exact Or.inr (Or.inl ⟨selection, hmem, hempty, hpast, hlast⟩)
    · have hsome : selection.isEmpty = false := Bool.eq_false_iff.mpr hempty
      rw [if_neg hempty, hoverlaps selection hmem hsome] at hmarks
      exact Or.inr (Or.inr ⟨selection, hmem, hsome, hmarks⟩)
  · rintro (⟨caret, hmem, hempty, hholds⟩ | ⟨caret, hmem, hempty, hpast, hlast⟩ |
      ⟨selection, hmem, hempty, hshare⟩)
    · refine ⟨caret, hmem, ?_⟩
      rw [marksLine, if_pos hempty, hholds, Bool.true_or]
    · refine ⟨caret, hmem, ?_⟩
      rw [marksLine, if_pos hempty, hlast, decide_eq_true hpast, Bool.and_self, Bool.or_true]
    · refine ⟨selection, hmem, ?_⟩
      rw [marksLine, hempty, if_neg Bool.false_ne_true, hoverlaps selection hmem hempty]
      exact hshare

/-! ## The block of a view -/

/-- The rows beside a view: `count` lines of the text, the first of which has the index `first`. -/
structure GutterBlock (text : Text) (view : Extent) (selections : List Extent)
    (rows : List GutterRow) (first count : Nat) : Prop where
  extents_eq : rows.map (·.extent) = (text.lineExtents.drop first).take count
  count_pos : 0 < count
  fits : first + count ≤ text.lineExtents.length
  /-- The block begins with the line that holds the beginning of the view. -/
  begins : text.LineHolds first (min view.start text.length)
  /-- It goes on with the lines that begin in the view, and with the empty last line if the view
  reaches the end of the text. -/
  goes_on : ∀ index line, first < index → text.lineExtents[index]? = some line →
    (index < first + count ↔
      line.start < view.stop ∨ line.isEmpty = true ∧ text.length ≤ view.stop)
  number_eq : ∀ row ∈ rows, row.number = text.lineNumberAt row.extent.start
  /-- A row is marked by a caret on its line, in the last row by a caret at the end of the text or
  past it, and by a selection that shares a character with the line. -/
  marked_iff : ∀ i row, rows[i]? = some row →
    (row.marked = true ↔
      (∃ caret ∈ selections, caret.isEmpty = true ∧ row.extent.holds caret.start = true) ∨
      (∃ caret ∈ selections, caret.isEmpty = true ∧ text.length ≤ caret.start ∧ i + 1 = count) ∨
      ∃ selection ∈ selections, selection.isEmpty = false ∧
        ∃ offset, selection.holds offset = true ∧ row.extent.holds offset = true)

/-- The rows of the gutter are a block of the lines. -/
theorem gutterBlock_gutterRows (text : Text) (hview : view.Fits)
    (hselections : ∀ selection ∈ selections, selection.isEmpty = false → selection.Fits) :
    GutterBlock text view selections (gutterRows text view selections)
      (text.linesAbove view.start) (linesInView text view).length := by
  have hprefix := linesInView_prefix text view
  have hpos := length_linesInView_pos text hview
  have hfits : text.linesAbove view.start + (linesInView text view).length ≤
      text.lineExtents.length := by
    have hlength := hprefix.length_le
    rw [List.length_drop] at hlength
    omega
  refine ⟨?_, hpos, hfits, lineHolds_view text view, ?_, ?_, ?_⟩
  · rw [gutterRows, map_extent_numberRows]
    exact List.prefix_iff_eq_take.mp hprefix
  · intro index line hlater hline
    obtain ⟨i, rfl⟩ := Nat.exists_eq_add_of_le (Nat.le_of_lt hlater)
    rw [← inView_iff hview hlater hline, Nat.add_lt_add_iff_left]
    exact lt_length_linesInView_iff hline
  · intro row hmem
    obtain ⟨i, hi⟩ := List.getElem?_of_mem hmem
    obtain ⟨line, hline, rfl⟩ := eq_of_gutterRows hi
    exact number_of_linesInView hline
  · intro i row hi
    obtain ⟨line, hline, rfl⟩ := eq_of_gutterRows hi
    rw [any_marksLine_iff hselections (Text.stop_le_length (getElem?_of_linesInView hline))]
    simp only [beq_iff_eq]

/-! ## The whole text in view -/

/-- If the whole text is in view, the block is all lines. -/
theorem GutterBlock.all {rows : List GutterRow} {first count : Nat}
    (h : GutterBlock text view selections rows first count)
    (hall : ∀ offset < text.length, view.holds offset = true) :
    first = 0 ∧ count = text.lineExtents.length := by
  have hpos := h.count_pos
  have hfits := h.fits
  have hfirst : first = 0 := by
    rcases Nat.eq_zero_or_pos text.length with hzero | hsome
    · have hone : text.lineExtents.length = 1 := by
        rw [List.length_eq_zero_iff.mp hzero]
        rfl
      omega
    · have hstart : view.start = 0 := by
        have hholds := hall 0 hsome
        simp only [Extent.holds, Bool.and_eq_true, decide_eq_true_eq] at hholds
        omega
      have hbegins := (Text.lineHolds_iff (Nat.min_le_right _ _)).mp h.begins
      rw [hbegins, Text.linesAbove_min, hstart]
      rfl
  refine ⟨hfirst, ?_⟩
  subst hfirst
  by_contra hshort
  have hlt : count < text.lineExtents.length := by omega
  -- The line behind the block would be shown as well.
  have hline := List.getElem?_eq_getElem hlt
  have hshown := (h.goes_on count _ hpos hline).not.mp (by omega)
  obtain ⟨hbehind, hempty⟩ := not_or.mp hshown
  have hstop : text.length ≤ view.stop := by
    rcases Nat.eq_zero_or_pos text.length with hzero | hsome
    · omega
    · have hholds := hall (text.length - 1) (Nat.sub_lt hsome Nat.one_pos)
      simp only [Extent.holds, Bool.and_eq_true, decide_eq_true_eq] at hholds
      omega
  have hinside := Text.stop_le_length hline
  unfold Extent.stop at hinside
  apply hempty
  refine ⟨?_, hstop⟩
  simp only [Extent.isEmpty, beq_iff_eq]
  omega

/-- A caret is on the line of its offset, or on the last line if it is past the text. -/
theorem marked_caret_iff {caret i : Nat} {line : Extent}
    (hline : text.lineExtents[i]? = some line) :
    line.holds caret = true ∨ text.length ≤ caret ∧ i + 1 = text.lineExtents.length ↔
      i = text.linesAbove caret := by
  have hstop := Text.stop_le_length hline
  rw [← text.linesAbove_min, ← Text.lineHolds_iff (Nat.min_le_right _ _), Text.LineHolds, hline]
  simp only [Option.some.injEq, exists_eq_left', Extent.holds, Bool.and_eq_true,
    decide_eq_true_eq]
  omega

/--
The rows beside a view are a block of lines, if the ends of the view and of the selections are
words.  If the whole text is in view, one row is marked for a caret, and its number is the row of
the spot where the caret stands.
-/
theorem gutterRows_block (text : Text) {view : Extent} (hview : view.Fits) :
    (∀ selections : List Extent, (∀ selection ∈ selections, selection.Fits) → ∃ first count,
      GutterBlock text view selections (gutterRows text view selections) first count) ∧
    ((∀ offset < text.length, view.holds offset = true) →
      ∀ caret, ∃ row, (gutterRows text view [Extent.caret caret]).filter (·.marked) = [row] ∧
        row.number = (text.spotAt caret).row) := by
  refine ⟨fun selections hselections => ⟨_, _, gutterBlock_gutterRows text hview
    fun selection hmem _ => hselections selection hmem⟩, ?_⟩
  intro hall caret
  have hcaret : ∀ selection ∈ [Extent.caret caret],
      selection.isEmpty = false → selection.Fits := by simp
  have hblock := gutterBlock_gutterRows text hview hcaret
  generalize gutterRows text view [Extent.caret caret] = rows at hblock ⊢
  generalize text.linesAbove view.start = first at hblock
  generalize (linesInView text view).length = count at hblock
  obtain ⟨rfl, rfl⟩ := hblock.all hall
  have hrows : rows.map (·.extent) = text.lineExtents := by
    rw [hblock.extents_eq, List.drop_zero, List.take_length]
  have hextent (i : Nat) (row : GutterRow) (hi : rows[i]? = some row) :
      text.lineExtents[i]? = some row.extent := by
    rw [← hrows, List.getElem?_map, hi]
    rfl
  have hmarked (i : Nat) (row : GutterRow) (hi : rows[i]? = some row) :
      row.marked = true ↔ i = text.linesAbove caret := by
    rw [hblock.marked_iff i row hi, ← marked_caret_iff (hextent i row hi)]
    simp [Extent.caret, Extent.isEmpty]
  obtain ⟨row, hrow⟩ : ∃ row, rows[text.linesAbove caret]? = some row := by
    have hline := @Text.getElem?_linesAbove text _ (Nat.min_le_right caret text.length)
    rw [text.linesAbove_min, ← hrows, List.getElem?_map] at hline
    obtain ⟨row, hrow, -⟩ := Option.map_eq_some_iff.mp hline
    exact ⟨row, hrow⟩
  refine ⟨row, filter_eq_singleton hrow hmarked, ?_⟩
  have hline := hextent _ row hrow
  have hholds := (Text.lineHolds_iff (Text.start_le_length hline)).mp (Text.lineHolds_start hline)
  have hspot : (text.spotAt caret).row = text.lineNumberAt caret :=
    Spot.row_walk Spot.origin (text.take caret)
  rw [hblock.number_eq row (List.mem_of_getElem? hrow), hspot, Text.lineNumberAt_eq,
    Text.lineNumberAt_eq, hholds]

/-- A caret past the end of a text that ends with a line feed marks the empty last line. -/
theorem gutterRows_block_past_end :
    let text : Text := ['a', '\n', 'b', '\n']
    (Extent.whole text).Fits ∧
      (∀ selection ∈ [Extent.caret 7], selection.Fits) ∧
      (∀ offset < text.length, (Extent.whole text).holds offset = true) ∧
      (∃ first count, GutterBlock text (Extent.whole text) [Extent.caret 7]
        (gutterRows text (Extent.whole text) [Extent.caret 7]) first count) ∧
      ∃ row, (gutterRows text (Extent.whole text) [Extent.caret 7]).filter (·.marked) = [row] ∧
        row.number = (text.spotAt 7).row ∧ row = ⟨3, ⟨4, 0⟩, true⟩ := by
  intro text
  have hfits : (Extent.whole text).Fits := by decide
  have hselections : ∀ selection ∈ [Extent.caret 7], selection.Fits := by decide
  have hall : ∀ offset < text.length, (Extent.whole text).holds offset = true := by decide
  obtain ⟨hblock, hcaret⟩ := gutterRows_block text hfits
  obtain ⟨row, hrow, hnumber⟩ := hcaret hall 7
  have hrows : (gutterRows text (Extent.whole text) [Extent.caret 7]).filter (·.marked) =
      [⟨3, ⟨4, 0⟩, true⟩] := by decide
  rw [hrows] at hrow
  obtain rfl := List.head_eq_of_cons_eq hrow
  exact ⟨hfits, hselections, hall, hblock _ hselections, _, hrows, hnumber, rfl⟩

/-- The longest view that begins on a second line ends at one, so no line is in view, though the
view holds the offsets of the second line. -/
theorem not_gutterRows_block_longest :
    let text : Text := ['a', '\n', 'b', '\n', 'c']
    let view : Extent := ⟨2, Extent.wordSize - 1⟩
    view.holds 2 = true ∧ gutterRows text view [] = [] ∧
      ¬ ∃ first count, GutterBlock text view [] (gutterRows text view []) first count := by
  intro text view
  have hnone : gutterRows text view [] = [] := by decide
  refine ⟨by decide, hnone, ?_⟩
  rintro ⟨first, count, hblock⟩
  have hlength := congrArg List.length hblock.extents_eq
  rw [hnone, List.length_take, List.length_drop] at hlength
  have hpos := hblock.count_pos
  have hfits := hblock.fits
  simp only [List.map_nil, List.length_nil] at hlength
  omega

end ScratchEditor

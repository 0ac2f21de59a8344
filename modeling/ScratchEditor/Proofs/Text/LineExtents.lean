import ScratchEditor.Proofs.Text.Lines
import ScratchEditor.Text.Spot

/-!
# Lines by number

The lines of a text stand one behind the other, so every offset is held by exactly one of them:
the offset of a character by the line the character is on, and the end of the text by the last
line.  How many lines are above it is seen from the line feeds before the offset.

Main definitions:

- `Text.linesAbove`: how many lines end before an offset.
- `Text.LineHolds`: whether the line with an index holds an offset.

Main results:

- `Text.getElem?_linesAbove`: the line of an offset, with its index.
- `Text.lineHolds_iff`: which line holds an offset.
- `Text.start_lt_start`: later lines begin later.
-/

namespace ScratchEditor

namespace Text

/-! ## Extents of consecutive pieces -/

@[simp]
theorem length_extentsFrom (start : Nat) (pieces : List Text) :
    (extentsFrom start pieces).length = pieces.length := by
  induction pieces generalizing start with
  | nil => rfl
  | cons piece pieces ih => rw [extentsFrom, List.length_cons, List.length_cons, ih]

/-- A piece begins behind all those before it. -/
theorem getElem?_extentsFrom (start : Nat) (pieces : List Text) (index : Nat) :
    (extentsFrom start pieces)[index]? =
      pieces[index]?.map fun piece =>
        ⟨start + (pieces.take index).flatten.length, piece.length⟩ := by
  induction pieces generalizing start index with
  | nil => rfl
  | cons piece pieces ih =>
    cases index with
    | zero => rfl
    | succ index =>
      rw [extentsFrom, List.getElem?_cons_succ, List.getElem?_cons_succ, ih, List.take_succ_cons,
        List.flatten_cons, List.length_append, Nat.add_assoc]

variable {text before after line : Text} {c : Char} {i j index offset : Nat} {a b : Extent}

@[simp]
theorem length_lineExtents (text : Text) : text.lineExtents.length = text.lines.length :=
  length_extentsFrom 0 text.lines

theorem getElem?_lineExtents (text : Text) (index : Nat) :
    text.lineExtents[index]? =
      text.lines[index]?.map fun line =>
        ⟨(text.lines.take index).flatten.length, line.length⟩ := by
  rw [lineExtents, getElem?_extentsFrom]
  simp only [Nat.zero_add]

/-- Where a line with an index begins and where it ends. -/
theorem bounds_of_getElem? (h : text.lineExtents[index]? = some a) :
    a.start = (text.lines.take index).flatten.length ∧
      a.stop = (text.lines.take (index + 1)).flatten.length := by
  rw [getElem?_lineExtents] at h
  obtain ⟨line, hline, rfl⟩ := Option.map_eq_some_iff.mp h
  refine ⟨rfl, ?_⟩
  rw [List.take_add_one, hline, List.flatten_append, List.length_append]
  simp [Extent.stop]

/-- Behind some lines stand the next ones. -/
theorem flatten_take_lines (text : Text) (h : i ≤ j) :
    (text.lines.take j).flatten =
      (text.lines.take i).flatten ++ ((text.lines.take j).drop i).flatten := by
  have hcut := (text.lines.take j).take_append_drop i
  rw [List.take_take, Nat.min_eq_left h] at hcut
  rw [← List.flatten_append, hcut]

/-- A text is made of some of its lines, those above them and those below them. -/
theorem flatten_lines_between (text : Text) (h : i ≤ j) :
    text = (text.lines.take i).flatten ++
      (((text.lines.take j).drop i).flatten ++ (text.lines.drop j).flatten) := by
  rw [← List.append_assoc, ← text.flatten_take_lines h, ← List.flatten_append,
    List.take_append_drop, flatten_lines]

/-- Some more lines are no shorter. -/
theorem length_flatten_take_mono (text : Text) (h : i ≤ j) :
    (text.lines.take i).flatten.length ≤ (text.lines.take j).flatten.length := by
  rw [text.flatten_take_lines h, List.length_append]
  exact Nat.le_add_right _ _

theorem stop_le_length (h : text.lineExtents[index]? = some a) : a.stop ≤ text.length := by
  rw [(bounds_of_getElem? h).2]
  conv_rhs => rw [← text.flatten_lines, ← text.lines.take_append_drop (index + 1)]
  rw [List.flatten_append, List.length_append]
  exact Nat.le_add_right _ _

theorem start_le_length (h : text.lineExtents[index]? = some a) : a.start ≤ text.length :=
  Nat.le_trans (Nat.le_add_right _ _) (stop_le_length h)

/-- Lines do not overlap. -/
theorem stop_le_start (hij : i < j) (hi : text.lineExtents[i]? = some a)
    (hj : text.lineExtents[j]? = some b) : a.stop ≤ b.start := by
  rw [(bounds_of_getElem? hi).2, (bounds_of_getElem? hj).1]
  exact text.length_flatten_take_mono hij

/-! ## The lines of a text -/

theorem lines_newline (text : Text) : lines ('\n' :: text) = ['\n'] :: text.lines := by
  rw [lines, if_pos rfl]

/-- Any other character goes on with the first line. -/
theorem lines_cons (hfeed : c ≠ '\n') {more : List Text} (h : text.lines = line :: more) :
    lines (c :: text) = (c :: line) :: more := by
  rw [lines, if_neg hfeed, h]

/-- The lines of a text begin with the first one. -/
theorem exists_lines (text : Text) : ∃ more, text.lines = firstLine text :: more := by
  induction text with
  | nil => exact ⟨[], rfl⟩
  | cons c text ih =>
    obtain ⟨more, hlines⟩ := ih
    by_cases hfeed : c = '\n'
    · subst hfeed
      exact ⟨lines text, lines_newline text⟩
    · refine ⟨more, ?_⟩
      rw [lines_cons hfeed hlines, firstLine, if_neg hfeed]

/-- There is one line more than there are line feeds. -/
theorem length_lines (text : Text) : text.lines.length = text.countP (· == '\n') + 1 := by
  induction text with
  | nil => rfl
  | cons c text ih =>
    by_cases hfeed : c = '\n'
    · rw [hfeed, lines_newline, List.length_cons, ih, List.countP_cons_of_pos rfl]
    · obtain ⟨more, hlines⟩ := exists_lines text
      rw [hlines, List.length_cons] at ih
      rw [lines_cons hfeed hlines, List.length_cons, ih,
        List.countP_cons_of_neg (by simpa using hfeed)]

/-- Only the last line may be empty. -/
theorem ne_nil_of_mem_dropLast (h : line ∈ text.lines.dropLast) : line ≠ [] := by
  induction text generalizing line with
  | nil => cases h
  | cons c text ih =>
    obtain ⟨more, hlines⟩ := exists_lines text
    by_cases hfeed : c = '\n'
    · rw [hfeed, lines_newline, List.dropLast_cons_of_ne_nil (lines_ne_nil text)] at h
      rcases List.mem_cons.mp h with rfl | hlater
      · exact List.cons_ne_nil _ _
      · exact ih hlater
    · rw [lines_cons hfeed hlines] at h
      rw [hlines] at ih
      by_cases hmore : more = []
      · subst hmore
        cases h
      · rw [List.dropLast_cons_of_ne_nil hmore] at h ih
        rcases List.mem_cons.mp h with rfl | hlater
        · exact List.cons_ne_nil _ _
        · exact ih (List.mem_cons_of_mem _ hlater)

/-- An empty line is the last one. -/
theorem last_of_isEmpty (h : text.lineExtents[index]? = some a) (hempty : a.isEmpty = true) :
    index + 1 = text.lineExtents.length := by
  have hlt : index < text.lineExtents.length := (List.getElem?_eq_some_iff.mp h).1
  rw [getElem?_lineExtents] at h
  obtain ⟨line, hline, rfl⟩ := Option.map_eq_some_iff.mp h
  have hnil : line = [] := by simpa [Extent.isEmpty] using hempty
  by_contra hlater
  rw [length_lineExtents] at hlt hlater
  have hmem : line ∈ text.lines.dropLast := by
    apply List.mem_of_getElem? (i := index)
    rw [List.getElem?_dropLast, if_pos (by omega), hline]
  exact ne_nil_of_mem_dropLast hmem hnil

/-- An empty line stands at the end of the text. -/
theorem start_of_isEmpty (h : text.lineExtents[index]? = some a) (hempty : a.isEmpty = true) :
    a.start = text.length := by
  have hall : text.lines.take (index + 1) = text.lines := by
    rw [last_of_isEmpty h hempty, length_lineExtents, List.take_length]
  have hstop := (bounds_of_getElem? h).2
  rw [hall, flatten_lines] at hstop
  have hlength : a.length = 0 := by simpa [Extent.isEmpty] using hempty
  unfold Extent.stop at hstop
  omega

/-- Every line but the last moves on to the next one. -/
theorem start_lt_start (hij : i < j) (hi : text.lineExtents[i]? = some a)
    (hj : text.lineExtents[j]? = some b) : a.start < b.start := by
  have hstop := stop_le_start hij hi hj
  have hlt : j < text.lineExtents.length := (List.getElem?_eq_some_iff.mp hj).1
  have hempty : a.length ≠ 0 := by
    intro hzero
    have hlast := last_of_isEmpty hi (by simp [Extent.isEmpty, hzero])
    omega
  unfold Extent.stop at hstop
  omega

theorem pairwise_lineExtents (text : Text) :
    text.lineExtents.Pairwise fun a b => a.start < b.start := by
  rw [List.pairwise_iff_getElem]
  intro i j hi hj hij
  exact start_lt_start hij (List.getElem?_eq_getElem hi) (List.getElem?_eq_getElem hj)

/-- The lines of a text that ends a line come before those of the text behind it. -/
theorem exists_lines_append (h : before.EndsLine) :
    ∃ above, above.flatten = before ∧ above.length = before.countP (· == '\n') ∧
      ∀ after, lines (before ++ after) = above ++ after.lines := by
  induction before with
  | nil => exact ⟨[], rfl, rfl, fun _ => rfl⟩
  | cons c before ih =>
    obtain ⟨above, hflatten, hlength, hlines⟩ := ih (EndsLine.right (a := [c]) h)
    by_cases hfeed : c = '\n'
    · subst hfeed
      refine ⟨['\n'] :: above, ?_, ?_, ?_⟩
      · rw [List.flatten_cons, hflatten]
        rfl
      · rw [List.length_cons, hlength, List.countP_cons_of_pos rfl]
      · intro after
        rw [List.cons_append, lines_newline, hlines]
        rfl
    · cases above with
      | nil =>
        obtain rfl : [] = before := hflatten
        exact absurd (h c rfl) hfeed
      | cons line above =>
        refine ⟨(c :: line) :: above, ?_, ?_, ?_⟩
        · rw [List.flatten_cons, List.cons_append, ← List.flatten_cons, hflatten]
        · rw [List.countP_cons_of_neg (by simpa using hfeed), ← hlength]
          rfl
        · intro after
          exact lines_cons hfeed (hlines after)

/-- The first line goes through any text without a line feed. -/
theorem firstLine_append (hline : '\n' ∉ line) (after : Text) :
    firstLine (line ++ after) = line ++ firstLine after := by
  induction line with
  | nil => rfl
  | cons c line ih =>
    obtain ⟨hfeed, hrest⟩ := List.ne_and_not_mem_of_not_mem_cons hline
    rw [List.cons_append, firstLine, if_neg (Ne.symm hfeed), ih hrest, List.cons_append]

/-! ## The line of an offset -/

/-- How many lines end before an offset. -/
def linesAbove (text : Text) (offset : Nat) : Nat :=
  (text.take offset).countP (· == '\n')

theorem linesAbove_mono (h : i ≤ j) : text.linesAbove i ≤ text.linesAbove j :=
  (List.take_sublist_take_left h).countP_le

/-- Nothing more ends behind the end of the text. -/
theorem linesAbove_min (text : Text) (offset : Nat) :
    text.linesAbove (min offset text.length) = text.linesAbove offset := by
  rw [linesAbove, linesAbove, ← List.take_take, List.take_length]

theorem lineNumberAt_eq (text : Text) (offset : Nat) :
    text.lineNumberAt offset = text.linesAbove offset + 1 :=
  Nat.add_comm _ _

/-- The line of an offset stands behind the lines that end before it. -/
theorem getElem?_linesAbove (h : offset ≤ text.length) :
    text.lineExtents[text.linesAbove offset]? =
      some (Extent.between (text.lineStart offset) (text.lineStop offset)) := by
  obtain ⟨before, line, htake, htext, hbefore, hline, hstart⟩ := exists_lineStart h
  obtain ⟨above, hflatten, hlength, hlines⟩ := exists_lines_append hbefore
  obtain ⟨more, hmore⟩ := exists_lines (line ++ text.drop offset)
  have hindex : text.linesAbove offset = above.length := by
    have hnone : line.countP (· == '\n') = 0 := by
      rw [List.countP_eq_zero]
      rintro d hd
      rw [beq_iff_eq]
      rintro rfl
      exact hline hd
    rw [linesAbove, htake, List.countP_append, hnone, hlength, Nat.add_zero]
  have hall : text.lines = above ++ (line ++ firstLine (text.drop offset)) :: more := by
    conv_lhs => rw [htext]
    rw [hlines, hmore, firstLine_append hline]
  rw [getElem?_lineExtents, hall, hindex, List.getElem?_append_right (Nat.le_refl _),
    Nat.sub_self, List.getElem?_cons_zero, List.take_left, hflatten, hstart]
  have hoffset := congrArg List.length htake
  rw [List.length_take, Nat.min_eq_left h, List.length_append] at hoffset
  unfold Extent.between lineStop
  rw [Option.map_some, Option.some_inj, Extent.mk.injEq, List.length_append]
  exact ⟨rfl, by omega⟩

/-- At a character the line has not ended yet. -/
theorem lt_lineStop (h : offset < text.length) : offset < text.lineStop offset := by
  obtain ⟨c, rest, hdrop⟩ : ∃ c rest, text.drop offset = c :: rest :=
    List.exists_cons_of_length_pos (by rw [List.length_drop]; omega)
  have hpos : 0 < (firstLine (c :: rest)).length := by
    unfold firstLine
    split <;> exact Nat.succ_pos _
  unfold lineStop
  rw [hdrop]
  omega

/-- No line ends before the end of the text is reached, but the last. -/
theorem linesAbove_length (text : Text) :
    text.linesAbove text.length + 1 = text.lineExtents.length := by
  rw [linesAbove, List.take_length, length_lineExtents, length_lines]

/--
The line with an index holds an offset: the character there is on the line, or the offset is the
end of the text and the line is the last one.
-/
def LineHolds (text : Text) (index offset : Nat) : Prop :=
  ∃ line, text.lineExtents[index]? = some line ∧
    (line.holds offset = true ∨ offset = text.length ∧ index + 1 = text.lineExtents.length)

instance (text : Text) (index offset : Nat) : Decidable (text.LineHolds index offset) :=
  decidable_of_iff ((text.lineExtents[index]?).any fun line =>
      line.holds offset || (offset == text.length && index + 1 == text.lineExtents.length)) (by
    unfold LineHolds
    cases text.lineExtents[index]? <;> simp)

theorem lineHolds_linesAbove (h : offset ≤ text.length) :
    text.LineHolds (text.linesAbove offset) offset := by
  refine ⟨_, getElem?_linesAbove h, ?_⟩
  rcases Nat.lt_or_eq_of_le h with hlt | rfl
  · left
    have hstart : text.lineStart offset ≤ offset := Nat.sub_le _ _
    have hstop := lt_lineStop hlt
    rw [Extent.holds, Extent.stop_between (Nat.le_of_lt (Nat.lt_of_le_of_lt hstart hstop))]
    simp [Extent.between, hstart, hstop]
  · exact Or.inr ⟨rfl, linesAbove_length text⟩

theorem LineHolds.not_lt (hi : text.LineHolds i offset) (hj : text.LineHolds j offset) :
    ¬ i < j := by
  obtain ⟨a, ha, hholds⟩ := hi
  obtain ⟨b, hb, hholds'⟩ := hj
  intro hij
  have hapart := stop_le_start hij ha hb
  have hinside := stop_le_length hb
  have hlt : j < text.lineExtents.length := (List.getElem?_eq_some_iff.mp hb).1
  have hstart : b.start ≤ b.stop := Nat.le_add_right _ _
  simp only [Extent.holds, Bool.and_eq_true, decide_eq_true_eq] at hholds hholds'
  omega

/-- Every offset is held by one line, behind the lines that end before the offset. -/
theorem lineHolds_iff (h : offset ≤ text.length) :
    text.LineHolds index offset ↔ index = text.linesAbove offset := by
  have hthere := lineHolds_linesAbove h
  constructor
  · intro hholds
    exact Nat.le_antisymm (Nat.not_lt.mp (hthere.not_lt hholds))
      (Nat.not_lt.mp (hholds.not_lt hthere))
  · rintro rfl
    exact hthere

/-- Behind a last line feed stands the empty line, not the one that the line feed is on. -/
example : LineHolds ['a', '\n'] 1 2 ∧ ¬ LineHolds ['a', '\n'] 0 2 := by decide

/-- The line that begins at an offset holds it. -/
theorem lineHolds_start (h : text.lineExtents[index]? = some a) :
    text.LineHolds index a.start := by
  refine ⟨a, h, ?_⟩
  by_cases hempty : a.isEmpty = true
  · exact Or.inr ⟨start_of_isEmpty h hempty, last_of_isEmpty h hempty⟩
  · left
    have hlength : a.length ≠ 0 := by simpa [Extent.isEmpty] using hempty
    simp [Extent.holds, Extent.stop, Nat.pos_of_ne_zero hlength]

end Text

end ScratchEditor

import Mathlib.Data.List.Basic
import Mathlib.Data.List.Induction
import ScratchEditor.Text.Line

/-!
# Lines around a change

The lines that a change touches begin with the line the change begins on.  They end with
the line of the last character the change produced, so a change that produced a line feed
at its end does not touch the line that follows it.

Main definitions:

- `Text.EndsLine`: a text after which a line begins.
- `Text.lineTail`: what behind a change belongs to the lines it touches.

Main results:

- `Text.exists_lastLine` and `Text.exists_firstLine`: a text cut before its last line, and
  behind its first one.
- `Text.wholeLines_around`: the lines around a stretch of a text.
- `Text.exists_wholeLines`: the lines that any extent touches.
-/

namespace ScratchEditor

namespace Text

/-- The text is empty or ends with a line feed. -/
def EndsLine (text : Text) : Prop :=
  ∀ c ∈ text.getLast?, c = '\n'

theorem endsLine_nil : EndsLine [] := by
  simp [EndsLine]

theorem endsLine_iff {text : Text} : text.EndsLine ↔ text = [] ∨ text.getLast? = some '\n' := by
  unfold EndsLine
  cases hlast : text.getLast? with
  | none =>
    have hnil := List.getLast?_eq_none_iff.mp hlast
    simp [hnil]
  | some c =>
    have hne : text ≠ [] := by
      rintro rfl
      cases hlast
    simp [hne]

/-- A text that ends as another one does ends a line if that one does. -/
theorem EndsLine.append {a b : Text} (ha : a.EndsLine) (hb : b.EndsLine) : EndsLine (a ++ b) := by
  intro c hc
  rw [List.getLast?_append] at hc
  cases hlast : b.getLast? with
  | none =>
    rw [hlast, Option.none_or] at hc
    exact ha c hc
  | some d =>
    rw [hlast, Option.some_or] at hc
    exact hb c (by rw [hlast]; exact hc)

/-- A text ends as its last part does. -/
theorem EndsLine.right {a b : Text} (h : EndsLine (a ++ b)) : b.EndsLine := by
  intro c hc
  apply h
  rw [List.getLast?_append, Option.mem_def.mp hc]
  rfl

/-- A text that ends a line and holds no line feed is empty. -/
theorem EndsLine.eq_nil {text : Text} (h : text.EndsLine) (hline : '\n' ∉ text) : text = [] := by
  rcases endsLine_iff.mp h with hnil | hlast
  · exact hnil
  · exact absurd (List.mem_of_getLast? hlast) hline

/-! ## The first and the last line -/

/-- Every text has a last line, which may be empty. -/
theorem exists_lastLine (text : Text) :
    ∃ before line, text = before ++ line ∧ EndsLine before ∧ '\n' ∉ line := by
  induction text using List.reverseRecOn with
  | nil => exact ⟨[], [], rfl, endsLine_nil, by simp⟩
  | append_singleton text c ih =>
    by_cases hfeed : c = '\n'
    · refine ⟨text ++ [c], [], by simp, ?_, by simp⟩
      rw [endsLine_iff]
      right
      rw [List.getLast?_concat, hfeed]
    · obtain ⟨before, line, rfl, hbefore, hline⟩ := ih
      refine ⟨before, line ++ [c], by simp, hbefore, ?_⟩
      simp [hline, Ne.symm hfeed]

/-- Every text begins with its first line, which ends with a line feed if it is not the last. -/
theorem exists_firstLine (text : Text) :
    ∃ rest, text = firstLine text ++ rest ∧
      ((firstLine text).getLast? = some '\n' ∨ rest = []) := by
  induction text with
  | nil => exact ⟨[], rfl, Or.inr rfl⟩
  | cons c text ih =>
    unfold firstLine
    by_cases hfeed : c = '\n'
    · rw [if_pos hfeed]
      refine ⟨text, rfl, Or.inl ?_⟩
      simp [hfeed]
    · rw [if_neg hfeed]
      obtain ⟨rest, hsplit, hend⟩ := ih
      refine ⟨rest, by rw [List.cons_append, ← hsplit], ?_⟩
      rcases hend with hline | hnil
      · left
        rw [List.getLast?_cons, hline]
        rfl
      · exact Or.inr hnil

/-! ## Lines around a stretch -/

theorem lineStart_le (text : Text) (offset : Nat) : text.lineStart offset ≤ offset :=
  Nat.sub_le _ _

/-- A line begins behind the text that ends with the line before. -/
theorem lineStart_eq {before line after : Text} (hbefore : EndsLine before) (hline : '\n' ∉ line) :
    lineStart (before ++ (line ++ after)) (before.length + line.length) = before.length := by
  have htake : (before ++ (line ++ after)).take (before.length + line.length) = before ++ line := by
    rw [List.take_length_add_append, List.take_left]
  have hrun : (line.reverse ++ before.reverse).takeWhile (· != '\n') = line.reverse := by
    have hall : ∀ c ∈ line.reverse, (c != '\n') = true := by
      intro c hc
      rw [bne_iff_ne]
      rintro rfl
      exact hline (List.mem_reverse.mp hc)
    rw [List.takeWhile_append_of_pos hall]
    cases hlast : before.reverse with
    | nil => simp
    | cons c rest =>
      have hfeed : c = '\n' := by
        apply hbefore
        rw [List.getLast?_eq_head?_reverse, hlast]
        rfl
      simp [hfeed]
  unfold lineStart
  rw [htake, List.reverse_append, hrun, List.length_reverse, Nat.add_sub_cancel]

/-- A text cut where the line of an offset begins, and at the offset. -/
theorem exists_lineStart {text : Text} {offset : Nat} (h : offset ≤ text.length) :
    ∃ before line : Text, text.take offset = before ++ line ∧
      text = before ++ (line ++ text.drop offset) ∧ EndsLine before ∧ '\n' ∉ line ∧
        text.lineStart offset = before.length := by
  obtain ⟨before, line, htake, hbefore, hline⟩ := exists_lastLine (text.take offset)
  have hoffset : offset = before.length + line.length := by
    have hlength := congrArg List.length htake
    rwa [List.length_take, Nat.min_eq_left h, List.length_append] at hlength
  have htext : text = before ++ (line ++ text.drop offset) := by
    rw [← List.append_assoc, ← htake, List.take_append_drop]
  refine ⟨before, line, htake, htext, hbefore, hline, ?_⟩
  have hstart := @lineStart_eq before line (text.drop offset) hbefore hline
  rwa [← htext, ← hoffset] at hstart

/-- What belongs to the lines that a change touches, of the text behind what it produced. -/
def lineTail (produced behind : Text) : Text :=
  if produced.getLast? = some '\n' then [] else firstLine behind

/--
The lines around a stretch: from the line it begins on to the line of its last character.
-/
theorem wholeLines_around {before line : Text} (produced behind : Text)
    (hbefore : EndsLine before) (hline : '\n' ∉ line) :
    wholeLines (before ++ (line ++ (produced ++ behind)))
        ⟨before.length + line.length, produced.length⟩ =
      ⟨before.length, (line ++ (produced ++ lineTail produced behind)).length⟩ := by
  have hstart := @lineStart_eq before line (produced ++ behind) hbefore hline
  have hmin : min (before.length + line.length)
      (before ++ (line ++ (produced ++ behind))).length = before.length + line.length := by
    simp only [List.length_append]
    omega
  unfold wholeLines Extent.between
  dsimp only
  rw [hmin, hstart]
  rw [Extent.mk.injEq]
  refine ⟨rfl, ?_⟩
  rcases List.eq_nil_or_concat' produced with rfl | ⟨first, c, rfl⟩
  · have hdrop : (before ++ (line ++ behind)).drop (before.length + line.length) = behind := by
      rw [List.drop_length_add_append, List.drop_left]
    have hempty : Extent.isEmpty ⟨before.length + line.length, ([] : Text).length⟩ = true := rfl
    rw [if_pos hempty]
    unfold lineStop lineTail
    rw [List.nil_append, hdrop]
    simp
    omega
  · have hempty : Extent.isEmpty ⟨before.length + line.length, (first ++ [c]).length⟩ = false := by
      simp [Extent.isEmpty]
    have hinside : Extent.stop ⟨before.length + line.length, (first ++ [c]).length⟩ ≤
        (before ++ (line ++ (first ++ [c] ++ behind))).length := by
      simp only [Extent.stop, List.length_append, List.length_singleton]
      omega
    have hlast : max (min (Extent.touched (before ++ (line ++ (first ++ [c] ++ behind))).length
        ⟨before.length + line.length, (first ++ [c]).length⟩)
        (before ++ (line ++ (first ++ [c] ++ behind))).length) (before.length + line.length) =
        before.length + (line.length + first.length) := by
      rw [Extent.touched_eq (Extent.reach_of_le hinside) hempty]
      simp only [Extent.stop, List.length_append, List.length_singleton]
      omega
    have hdrop : (before ++ (line ++ (first ++ [c] ++ behind))).drop
        (before.length + (line.length + first.length)) = c :: behind := by
      rw [List.drop_length_add_append, List.drop_length_add_append, List.append_assoc,
        List.drop_left]
      rfl
    rw [hempty, if_neg Bool.false_ne_true]
    unfold lineStop lineTail
    rw [hlast, hdrop, firstLine, List.getLast?_concat]
    by_cases hfeed : c = '\n'
    · simp [hfeed]
      omega
    · simp [hfeed]
      omega

/-- Behind a change, the lines that it touches end where they end in the text before it. -/
theorem exists_lineTail (line produced behind : Text) :
    ∃ rest, behind = lineTail produced behind ++ rest ∧
      ((line ++ (produced ++ lineTail produced behind)).getLast? = some '\n' ∨ rest = []) := by
  unfold lineTail
  by_cases hfeed : produced.getLast? = some '\n'
  · rw [if_pos hfeed]
    refine ⟨behind, rfl, Or.inl ?_⟩
    simp [List.getLast?_append, hfeed]
  · rw [if_neg hfeed]
    obtain ⟨rest, hsplit, hend⟩ := exists_firstLine behind
    refine ⟨rest, hsplit, hend.imp_left ?_⟩
    intro hline
    simp [List.getLast?_append, hline]

/-- All of a text is its lines. -/
theorem wholeLines_whole (text : Text) :
    text.wholeLines (Extent.whole text) = Extent.whole text := by
  have htail : lineTail text [] = [] := by
    unfold lineTail
    split <;> rfl
  have haround := @wholeLines_around [] [] text [] endsLine_nil (by simp)
  simpa [htail, Extent.whole] using haround

/-- The lines that an extent touches, with the text around them. -/
theorem exists_wholeLines (text : Text) (extent : Extent) :
    ∃ before touched after, text = before ++ (touched ++ after) ∧
      text.wholeLines extent = ⟨before.length, touched.length⟩ ∧ before.EndsLine ∧
        (touched.EndsLine ∨ after = []) := by
  obtain ⟨first, last, hfirst, hlast, hregion⟩ : ∃ first last, first ≤ last ∧ last ≤ text.length ∧
      text.wholeLines extent = Extent.between (text.lineStart first) (text.lineStop last) := by
    refine ⟨min extent.start text.length, _, ?_, ?_, rfl⟩
    · split <;> omega
    · split <;> omega
  obtain ⟨before, line, hsplit, htext, hbefore, -, hstart⟩ :=
    exists_lineStart (Nat.le_trans hfirst hlast)
  have hbegins := text.lineStart_le first
  rw [hstart] at hbegins
  obtain ⟨after, hrest, hends⟩ := exists_firstLine (text.drop last)
  -- From the beginning of the first line through the last character, and on to the end of its line.
  have hbetween : text.take last = before ++ (text.take last).drop before.length := by
    have hprefix : (text.take last).take before.length = before := by
      rw [List.take_take, Nat.min_eq_left (by omega)]
      conv_lhs => rw [htext]
      exact List.take_left
    conv_lhs => rw [← List.take_append_drop before.length (text.take last), hprefix]
  refine ⟨before, (text.take last).drop before.length ++ firstLine (text.drop last), after, ?_, ?_,
    hbefore, ?_⟩
  · rw [List.append_assoc, ← List.append_assoc before, ← hbetween, ← hrest, List.take_append_drop]
  · rw [hregion, hstart, Extent.between, Extent.mk.injEq, List.length_append, List.length_drop,
      List.length_take]
    unfold lineStop
    exact ⟨rfl, by omega⟩
  · rcases hends with hfeed | hnil
    · left
      rw [endsLine_iff]
      right
      simp [List.getLast?_append, hfeed]
    · exact Or.inr hnil

/-- The lines that an extent touches are lines of the text. -/
theorem stop_wholeLines_le (text : Text) (extent : Extent) :
    (text.wholeLines extent).stop ≤ text.length := by
  obtain ⟨before, touched, after, htext, hlines, -⟩ := text.exists_wholeLines extent
  rw [hlines, htext, List.length_append, List.length_append]
  exact Nat.add_le_add_left (Nat.le_add_right _ _) _

end Text

end ScratchEditor

import ScratchEditor.Proofs.Editor.Painting

/-!
# What a report repaints

After an edit the session reports the lines around what the edit produced, and the last
line again if it had to add a line feed.  On these lines the reported spans give the
styles that the whole text gets.  Elsewhere the styles of the text stay what they were,
except perhaps in the rest of a line that a line feed at the end of what the edit produced
has cut off.

Main definitions:

- `Classifier.Unbroken`: a text in which no token runs over the end of a line.
- `Change`: a text before and after an edit, cut into the pieces that matter.

Main results:

- `Classifier.colorAt_classify`: the lines around a stretch of a text without broken lines.
- `Change.colorAt_spans`: the reported spans on the lines that they repaint.
- `Change.colorAt_before` and `Change.colorAt_behind`: the styles that stay.
-/

namespace ScratchEditor

namespace Classifier

/-- No token holds a line feed behind which the text goes on. -/
def Unbroken (classifier : Classifier) (text : Text) : Prop :=
  ∀ span ∈ classifier.highlight text, span.kind.isSome →
    ∀ offset, span.extent.holds offset = true → offset + 1 < text.length →
      text[offset]? ≠ some '\n'

/-- Only the offsets in the text count. -/
theorem unbroken_iff {classifier : Classifier} {text : Text} :
    classifier.Unbroken text ↔ ∀ span ∈ classifier.highlight text, span.kind.isSome →
      ∀ offset < text.length, span.extent.holds offset = true → offset + 1 < text.length →
        text[offset]? ≠ some '\n' := by
  constructor
  · intro h span hmem hkind offset _ hholds hlt
    exact h span hmem hkind offset hholds hlt
  · intro h span hmem hkind offset hholds hlt
    exact h span hmem hkind offset (Nat.lt_of_succ_lt hlt) hholds hlt

instance (classifier : Classifier) (text : Text) : Decidable (classifier.Unbroken text) :=
  decidable_of_iff' _ unbroken_iff

variable {settings : Settings}

/-- The spans of the lines around a stretch. -/
theorem classify_around (classifier : Classifier) {before line : Text} (produced behind : Text)
    (hbefore : before.EndsLine) (hline : '\n' ∉ line) :
    classifier.classify (before ++ (line ++ (produced ++ behind)))
        ⟨before.length + line.length, produced.length⟩ =
      ⟨⟨before.length, (line ++ (produced ++ Text.lineTail produced behind)).length⟩,
          classifier.baseStyle, none⟩ ::
        (classifier.overlays (line ++ (produced ++ Text.lineTail produced behind))).map
          (shiftSpan before.length) := by
  obtain ⟨rest, hrest, -⟩ := Text.exists_lineTail line produced behind
  have hslice : (before ++ (line ++ (produced ++ behind))).slice
      ⟨before.length, (line ++ (produced ++ Text.lineTail produced behind)).length⟩ =
      line ++ (produced ++ Text.lineTail produced behind) := by
    have hsplit : line ++ (produced ++ behind) =
        (line ++ (produced ++ Text.lineTail produced behind)) ++ rest := by
      rw [List.append_assoc, List.append_assoc, ← hrest]
    unfold Text.slice
    dsimp only
    rw [List.drop_left, hsplit, List.take_left]
  rw [classify_eq, Text.wholeLines_around produced behind hbefore hline, hslice]

/-- The styles that the spans of the lines around a stretch give to these lines. -/
theorem colorAt_classify_around {before line : Text} (produced behind : Text)
    (hbefore : before.EndsLine) (hline : '\n' ∉ line) :
    (∀ offset < (line ++ (produced ++ Text.lineTail produced behind)).length,
      colorAt ((ofSettings settings).classify (before ++ (line ++ (produced ++ behind)))
          ⟨before.length + line.length, produced.length⟩) (before.length + offset) =
        (colorAt ((ofSettings settings).overlays
          (line ++ (produced ++ Text.lineTail produced behind))) offset).or
            (some (ofSettings settings).baseStyle)) ∧
    ∀ offset, (offset < before.length ∨
        before.length + (line ++ (produced ++ Text.lineTail produced behind)).length ≤ offset) →
      colorAt ((ofSettings settings).classify (before ++ (line ++ (produced ++ behind)))
        ⟨before.length + line.length, produced.length⟩) offset = none := by
  rw [classify_around (ofSettings settings) produced behind hbefore hline]
  generalize line ++ (produced ++ Text.lineTail produced behind) = region
  constructor
  · intro offset hlt
    have hbase : colorAt [⟨⟨before.length, region.length⟩, (ofSettings settings).baseStyle, none⟩]
        (before.length + offset) = some (ofSettings settings).baseStyle := by
      simp [colorAt, Extent.holds, Extent.stop, hlt]
    rw [← List.singleton_append, colorAt_append, colorAt_shift, hbase]
  · intro offset hout
    apply colorAt_eq_none
    intro span hmem
    rcases List.mem_cons.mp hmem with rfl | hover
    · exact hout
    · obtain ⟨own, hown, rfl⟩ := List.mem_map.mp hover
      obtain ⟨-, hstop, -⟩ := mem_overlays hown
      rw [start_shiftSpan, stop_shiftSpan]
      omega

/-- The styles of a whole text. -/
theorem colorAt_highlight {text : Text} {offset : Nat} (h : offset < text.length) :
    colorAt ((ofSettings settings).highlight text) offset =
      (colorAt ((ofSettings settings).overlays text) offset).or
        (some (ofSettings settings).baseStyle) := by
  have hbase : colorAt [⟨Extent.whole text, (ofSettings settings).baseStyle, none⟩] offset =
      some (ofSettings settings).baseStyle := by
    simp [colorAt, Extent.holds, Extent.stop, Extent.whole, h]
  rw [highlight_eq, ← List.singleton_append, colorAt_append, hbase]

/--
A span that begins before the beginning of a line of an unbroken text ends before it, unless it
is the end of the text.
-/
theorem Unbroken.stop_lt {text : Text} (h : (ofSettings settings).Unbroken text) {offset : Nat}
    (hoffset : Text.EndsLine (text.take offset) ∨ offset = text.length) :
    ∀ span ∈ (ofSettings settings).overlays text, span.extent.start < offset →
      span.extent.stop < offset ∨ span.extent.stop = offset ∧ offset = text.length := by
  intro span hspan hstart
  obtain ⟨-, hstop, hkind⟩ := mem_overlays hspan
  rcases hoffset with hline | hend
  · rcases Text.endsLine_iff.mp hline with hnil | hfeed
    · have hlength := congrArg List.length hnil
      rw [List.length_take, List.length_nil] at hlength
      omega
    · by_contra hlater
      have hmem : span ∈ (ofSettings settings).highlight text := by
        rw [highlight_eq]
        exact List.mem_cons_of_mem _ hspan
      have hholds : span.extent.holds (offset - 1) = true := by
        rw [Extent.holds_iff]
        omega
      have hlt : offset - 1 < text.length := by omega
      rw [List.getLast?_take, if_neg (by omega), List.getElem?_eq_getElem hlt,
        Option.some_or, ← List.getElem?_eq_getElem hlt] at hfeed
      exact h span hmem hkind (offset - 1) hholds (by omega) hfeed
  · omega

end Classifier

namespace Part

variable {text before lines rest after : Text} {settings : Settings}

/-- Lines with nothing behind them are a part of their text. -/
theorem of_lines (htext : text = before ++ (lines ++ after)) (hbegins : before.EndsLine)
    (hends : lines.EndsLine ∨ after = []) : Part text before lines [] after := by
  refine ⟨htext, hbegins, ?_, ?_⟩
  · exact hends.imp_right fun hafter => ⟨rfl, hafter⟩
  · rw [List.append_nil]
    refine hends.imp_right fun hafter => ?_
    rw [hafter]
    intro c hc
    cases hc

/-- In an unbroken text no span runs over the ends of a part. -/
theorem fits_of_unbroken (h : Part text before lines rest after)
    (hunbroken : (Classifier.ofSettings settings).Unbroken text) :
    ∀ span ∈ (Classifier.ofSettings settings).overlays text,
      ¬ span.Crosses before.length ∧
        (span.extent.start < before.length + lines.length →
          span.extent.stop < before.length + lines.length ∨
            span.extent.stop = before.length + lines.length ∧
              before.length + lines.length = text.length) := by
  have htake : text.take (before.length + lines.length) = before ++ lines := by
    rw [h.text_eq, List.take_length_add_append, List.take_left]
  have hbegins : Text.EndsLine (text.take before.length) := by
    rw [h.text_eq, List.take_left]
    exact h.begins
  have hends : Text.EndsLine (text.take (before.length + lines.length)) ∨
      before.length + lines.length = text.length := by
    rcases h.ends with hline | ⟨hrest, hafter⟩
    · left
      rw [htake]
      exact h.begins.append hline
    · right
      rw [h.length_text, hrest, hafter]
      rfl
  intro span hspan
  refine ⟨?_, hunbroken.stop_lt hends span hspan⟩
  rintro ⟨hstart, hstop⟩
  have hbefore := hunbroken.stop_lt (Or.inl hbegins) span hspan hstart
  omega

/-- On the lines of a part a whole text has the styles of the part. -/
theorem colorAt_highlight (h : Part text before lines rest after)
    (hunbroken : (Classifier.ofSettings settings).Unbroken text) {i : Nat} (hi : i < lines.length) :
    colorAt ((Classifier.ofSettings settings).highlight text) (before.length + i) =
      (colorAt ((Classifier.ofSettings settings).overlays (lines ++ rest)) i).or
        (some (Classifier.ofSettings settings).baseStyle) := by
  have hlength := h.length_text
  rw [Classifier.colorAt_highlight (by omega),
    h.colorAt_overlays (h.keywordEnds settings.keywords) (h.fits_of_unbroken hunbroken) hi]

/-- The same lines have the same styles in any text without broken lines. -/
theorem colorAt_eq {text' before' after' : Text} (h : Part text before lines [] after)
    (h' : Part text' before' lines [] after')
    (hunbroken : (Classifier.ofSettings settings).Unbroken text)
    (hunbroken' : (Classifier.ofSettings settings).Unbroken text') {i : Nat}
    (hi : i < lines.length) :
    colorAt ((Classifier.ofSettings settings).highlight text) (before.length + i) =
      colorAt ((Classifier.ofSettings settings).highlight text') (before'.length + i) := by
  rw [h.colorAt_highlight hunbroken hi, h'.colorAt_highlight hunbroken' hi]

end Part

namespace Classifier

variable {settings : Settings}

/--
The spans of the lines around a stretch of an unbroken text give these lines the styles of the
text, and give no styles elsewhere.
-/
theorem colorAt_classify {before line : Text} (produced behind : Text)
    (hbefore : before.EndsLine) (hline : '\n' ∉ line)
    (hunbroken : (ofSettings settings).Unbroken (before ++ (line ++ (produced ++ behind))))
    (offset : Nat) :
    colorAt ((ofSettings settings).classify (before ++ (line ++ (produced ++ behind)))
        ⟨before.length + line.length, produced.length⟩) offset =
      if before.length ≤ offset ∧
          offset < before.length +
            (line ++ (produced ++ Text.lineTail produced behind)).length then
        colorAt ((ofSettings settings).highlight (before ++ (line ++ (produced ++ behind)))) offset
      else none := by
  obtain ⟨rest, hrest, hends⟩ := Text.exists_lineTail line produced behind
  obtain ⟨hinside, houtside⟩ :=
    @colorAt_classify_around settings _ _ produced behind hbefore hline
  have hpart : Part (before ++ (line ++ (produced ++ behind))) before
      (line ++ (produced ++ Text.lineTail produced behind)) [] rest := by
    apply Part.of_lines _ hbefore
    · exact hends.imp_left fun hfeed => Text.endsLine_iff.mpr (Or.inr hfeed)
    · rw [List.append_assoc, List.append_assoc, ← hrest]
  by_cases hin : before.length ≤ offset ∧
      offset < before.length + (line ++ (produced ++ Text.lineTail produced behind)).length
  · rw [if_pos hin]
    obtain ⟨i, rfl⟩ := Nat.exists_eq_add_of_le hin.1
    have hi := Nat.lt_of_add_lt_add_left hin.2
    rw [hpart.colorAt_highlight hunbroken hi, List.append_nil]
    exact hinside i hi
  · rw [if_neg hin]
    exact houtside offset (by omega)

/-- The report of a line feed at the end of an unbroken text is one of its last line. -/
theorem colorAt_classify_feed {before last : Text} (hbefore : before.EndsLine)
    (hlast : '\n' ∉ last)
    (hunbroken : (ofSettings settings).Unbroken (before ++ (last ++ ['\n']))) (offset : Nat) :
    colorAt ((ofSettings settings).classify (before ++ (last ++ ['\n']))
        ⟨before.length + last.length, 1⟩) offset =
      if before.length ≤ offset ∧ offset < before.length + (last ++ ['\n']).length then
        colorAt ((ofSettings settings).highlight (before ++ (last ++ ['\n']))) offset
      else none :=
  colorAt_classify ['\n'] [] hbefore hlast hunbroken offset

end Classifier

/-! ## Texts around an edit -/

/--
An edit: `removed` is replaced by `produced`.  What stands before them is cut where the line
of the edit begins.
-/
structure Change where
  before : Text
  line : Text
  removed : Text
  produced : Text
  behind : Text
  begins : before.EndsLine
  line_ends : '\n' ∉ line

namespace Change

/-- The text before the edit. -/
def old (change : Change) : Text :=
  change.before ++ (change.line ++ (change.removed ++ change.behind))

/-- The text after the edit. -/
def edited (change : Change) : Text :=
  change.before ++ (change.line ++ (change.produced ++ change.behind))

/-- The line feed that is missing at the end of the edited text. -/
def missing (change : Change) : Text :=
  if change.edited.getLast? = some '\n' then [] else ['\n']

/-- The edited text with the line feed that was missing. -/
def new (change : Change) : Text :=
  change.edited ++ change.missing

/-- The lines that are reported for the edit. -/
def repainted (change : Change) : Text :=
  change.line ++ (change.produced ++ Text.lineTail change.produced change.behind)

/-- The spans that are reported for the edit and for the missing line feed. -/
def spans (change : Change) (classifier : Classifier) : List Span :=
  classifier.classify change.edited
      ⟨change.before.length + change.line.length, change.produced.length⟩ ++
    if change.edited.getLast? = some '\n' then []
    else classifier.classify change.new ⟨change.edited.length, 1⟩

variable {change : Change} {settings : Settings}

/-- If a line feed is missing, the edit reaches the end of the text. -/
theorem behind_eq_nil (hends : change.old.getLast? = some '\n')
    (hmissing : ¬ change.edited.getLast? = some '\n') : change.behind = [] := by
  by_contra hne
  obtain ⟨first, c, hbehind⟩ := (List.eq_nil_or_concat' change.behind).resolve_left hne
  apply hmissing
  rw [← hends]
  unfold edited old
  simp [hbehind, List.getLast?_append]

/-- The lines around an edit that leaves the line feed at the end, repainted. -/
theorem colorAt_spans_of_ended
    (hended : change.edited.getLast? = some '\n')
    (hunbroken : (Classifier.ofSettings settings).Unbroken change.new) (offset : Nat) :
    colorAt (change.spans (Classifier.ofSettings settings)) offset =
      if change.before.length ≤ offset ∧
          offset < change.before.length + change.repainted.length + change.missing.length then
        colorAt ((Classifier.ofSettings settings).highlight change.new) offset
      else none := by
  have hmissing : change.missing = [] := if_pos hended
  have hnew : change.new = change.edited := by
    unfold new
    rw [hmissing, List.append_nil]
  have hspans : change.spans (Classifier.ofSettings settings) =
      (Classifier.ofSettings settings).classify change.edited
        ⟨change.before.length + change.line.length, change.produced.length⟩ := by
    unfold spans
    rw [if_pos hended, List.append_nil]
  rw [hnew] at hunbroken ⊢
  rw [hspans, hmissing, List.length_nil, Nat.add_zero]
  exact Classifier.colorAt_classify change.produced change.behind change.begins
    change.line_ends hunbroken offset

/--
The lines around an edit at the end of the text and the last line, which is reported once more
with the line feed that was missing.  The spans of the first report that reach into the last
line are painted over.
-/
theorem colorAt_spans_of_missing
    (hmissing : ¬ change.edited.getLast? = some '\n') (hbehind : change.behind = [])
    (hunbroken : (Classifier.ofSettings settings).Unbroken change.new) (offset : Nat) :
    colorAt (change.spans (Classifier.ofSettings settings)) offset =
      if change.before.length ≤ offset ∧
          offset < change.before.length + change.repainted.length + change.missing.length then
        colorAt ((Classifier.ofSettings settings).highlight change.new) offset
      else none := by
  have hfeed : change.missing = ['\n'] := if_neg hmissing
  have hspans : change.spans (Classifier.ofSettings settings) =
      (Classifier.ofSettings settings).classify change.edited
          ⟨change.before.length + change.line.length, change.produced.length⟩ ++
        (Classifier.ofSettings settings).classify change.new ⟨change.edited.length, 1⟩ := by
    unfold spans
    rw [if_neg hmissing]
  have htail : Text.lineTail change.produced change.behind = [] := by
    unfold Text.lineTail
    rw [hbehind]
    split <;> rfl
  obtain ⟨lines, last, hsplit, hlines, hlast⟩ :=
    Text.exists_lastLine (change.line ++ change.produced)
  have hrepainted : change.repainted = lines ++ last := by
    unfold repainted
    rw [htail, List.append_nil, hsplit]
  have hedited : change.edited = change.before ++ (lines ++ last) := by
    unfold edited
    rw [hbehind, List.append_nil, hsplit]
  have hnew : change.new = change.before ++ lines ++ (last ++ ['\n']) := by
    unfold new
    rw [hedited, hfeed]
    simp
  -- The first report, up to the last line.
  have hfirst : Part change.new change.before lines last ['\n'] := by
    refine ⟨by rw [hnew, List.append_assoc], change.begins, Or.inl hlines, Or.inr ?_⟩
    intro c hc
    rw [← Option.some.inj hc]
    decide +kernel
  obtain ⟨hinside, houtside⟩ := @Classifier.colorAt_classify_around settings _ _ change.produced
    change.behind change.begins change.line_ends
  rw [htail, List.append_nil, hsplit] at hinside houtside
  -- The second report, of the last line.
  have hstart : change.edited.length = (change.before ++ lines).length + last.length := by
    rw [hedited, ← List.append_assoc, List.length_append]
  have hsecond : colorAt ((Classifier.ofSettings settings).classify change.new
      ⟨change.edited.length, 1⟩) offset =
        if (change.before ++ lines).length ≤ offset ∧
            offset < (change.before ++ lines).length + (last ++ ['\n']).length then
          colorAt ((Classifier.ofSettings settings).highlight change.new) offset
        else none := by
    rw [hstart]
    rw [hnew] at hunbroken ⊢
    exact Classifier.colorAt_classify_feed (change.begins.append hlines) hlast hunbroken offset
  rw [hspans, colorAt_append, hsecond, hrepainted, hfeed]
  have hlength := congrArg List.length hnew
  simp only [List.length_append, List.length_singleton] at hlength hinside houtside ⊢
  by_cases hlater : change.before.length + lines.length ≤ offset ∧
      offset < change.before.length + lines.length + (last.length + 1)
  · rw [if_pos hlater, if_pos (by omega), Classifier.colorAt_highlight (by omega),
      Option.or_assoc, Option.some_or]
  · rw [if_neg hlater, Option.none_or]
    by_cases hin : change.before.length ≤ offset ∧ offset < change.before.length + lines.length
    · obtain ⟨i, rfl⟩ := Nat.exists_eq_add_of_le hin.1
      have hi := Nat.lt_of_add_lt_add_left hin.2
      rw [if_pos (by omega), hfirst.colorAt_highlight hunbroken hi]
      exact hinside i (by omega)
    · rw [if_neg (by omega)]
      exact houtside offset (by omega)

/--
The spans that are reported give the lines they repaint the styles that the new text has,
and give no styles elsewhere.
-/
theorem colorAt_spans
    (hends : change.old.getLast? = some '\n')
    (hunbroken : (Classifier.ofSettings settings).Unbroken change.new) (offset : Nat) :
    colorAt (change.spans (Classifier.ofSettings settings)) offset =
      if change.before.length ≤ offset ∧
          offset < change.before.length + change.repainted.length + change.missing.length then
        colorAt ((Classifier.ofSettings settings).highlight change.new) offset
      else none := by
  by_cases hended : change.edited.getLast? = some '\n'
  · exact colorAt_spans_of_ended hended hunbroken offset
  · exact colorAt_spans_of_missing hended (behind_eq_nil hends hended) hunbroken offset

/-- Before the line of the edit the styles stay. -/
theorem colorAt_before
    (hold : (Classifier.ofSettings settings).Unbroken change.old)
    (hnew : (Classifier.ofSettings settings).Unbroken change.new) {offset : Nat}
    (h : offset < change.before.length) :
    colorAt ((Classifier.ofSettings settings).highlight change.new) offset =
      colorAt ((Classifier.ofSettings settings).highlight change.old) offset := by
  have hpart : Part change.old [] change.before []
      (change.line ++ (change.removed ++ change.behind)) :=
    Part.of_lines rfl Text.endsLine_nil (Or.inl change.begins)
  have hpart' : Part change.new [] change.before []
      (change.line ++ (change.produced ++ change.behind) ++ change.missing) := by
    apply Part.of_lines _ Text.endsLine_nil (Or.inl change.begins)
    simp [new, edited]
  have hcolor := hpart'.colorAt_eq hpart hnew hold h
  rw [List.length_nil, Nat.zero_add] at hcolor
  exact hcolor

/-- Behind the line that the edit reaches into the styles stay. -/
theorem colorAt_behind
    (hends : change.old.getLast? = some '\n')
    (hold : (Classifier.ofSettings settings).Unbroken change.old)
    (hnew : (Classifier.ofSettings settings).Unbroken change.new)
    {i : Nat} (hi : i < change.behind.length)
    (hover : (Text.firstLine change.behind).length ≤ i) :
    colorAt ((Classifier.ofSettings settings).highlight change.new)
        (change.before.length + change.line.length + change.produced.length + i) =
      colorAt ((Classifier.ofSettings settings).highlight change.old)
        (change.before.length + change.line.length + change.removed.length + i) := by
  have hended : change.edited.getLast? = some '\n' := by
    by_contra hmissing
    rw [behind_eq_nil hends hmissing] at hi
    exact absurd hi (Nat.not_lt_zero i)
  have hmissing : change.missing = [] := if_pos hended
  obtain ⟨rest, hrest, hline⟩ := Text.exists_firstLine change.behind
  have hlength := congrArg List.length hrest
  rw [List.length_append] at hlength
  have hfeed : (Text.firstLine change.behind).getLast? = some '\n' := by
    rcases hline with hfeed | hnone
    · exact hfeed
    · rw [hnone, List.length_nil] at hlength
      omega
  have hbegins (first : Text) : Text.EndsLine
      (change.before ++ (change.line ++ (first ++ Text.firstLine change.behind))) := by
    rw [Text.endsLine_iff]
    right
    simp [List.getLast?_append, hfeed]
  have hpart : Part change.old
      (change.before ++ (change.line ++ (change.removed ++ Text.firstLine change.behind)))
      rest [] [] := by
    apply Part.of_lines _ (hbegins _) (Or.inr rfl)
    unfold old
    rw [List.append_nil, List.append_assoc, List.append_assoc, List.append_assoc, ← hrest]
  have hpart' : Part change.new
      (change.before ++ (change.line ++ (change.produced ++ Text.firstLine change.behind)))
      rest [] [] := by
    apply Part.of_lines _ (hbegins _) (Or.inr rfl)
    unfold new edited
    rw [hmissing, List.append_nil, List.append_nil, List.append_assoc, List.append_assoc,
      List.append_assoc, ← hrest]
  obtain ⟨j, rfl⟩ := Nat.exists_eq_add_of_le hover
  have hj : j < rest.length := by omega
  have hcolor := hpart'.colorAt_eq hpart hnew hold hj
  simp only [List.length_append] at hcolor
  have hoffset (n : Nat) : change.before.length + change.line.length + n +
      ((Text.firstLine change.behind).length + j) =
      change.before.length + (change.line.length +
        (n + (Text.firstLine change.behind).length)) + j := by
    omega
  rw [hoffset, hoffset]
  exact hcolor

end Change

end ScratchEditor

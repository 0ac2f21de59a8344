import Mathlib.Data.List.Forall2
import ScratchEditor.Proofs.Pattern.Matches
import ScratchEditor.Proofs.Text.LineBytes
import ScratchEditor.Token.Refresh

/-!
# The spans of a region

What a classifier does to the lines that an extent touches depends on these lines alone.  Its
matches are found in them, at bytes that are counted from their beginning.  The meter begins at
the same place in the whole text, so it turns these bytes into the offsets of the same characters,
whatever stands in front of the lines and however many bytes it takes.

Main definitions:

- `Classifier.winners`: the categories that win the matches in a region, with what they match.
- `Classifier.overlays`: the spans over a region, by offsets from its beginning.
- `Classifier.highlight`: the spans of a whole text.
- `Classifier.Selects`: a span stands where the winner of a match was found.

Main results:

- `Classifier.spansOf_behind`: the meter reads the offsets of the matches.
- `Classifier.classify_eq`: the spans of some lines are the spans over a region, moved to them.
- `Classifier.classify_selects`: the base style, and spans in order that select what was matched.
- `Highlighter.classify_eq_map_refreshAll`: some lines are classified as a text of their own.
-/

namespace ScratchEditor

namespace Classifier

variable {ρ : Type} [Engine ρ]

/-! ## Spans over a region -/

/-- The categories that win the matches in a region, each with what its group matched. -/
def winners (classifier : Classifier ρ) (region : Text) : List (Category × Extent) :=
  match classifier.pattern with
  | none => []
  | some pattern =>
    (Engine.findAll pattern region).filterMap fun found =>
      winnerFrom pattern found 0 classifier.categories

/-- The spans that lie over a region, by offsets from its beginning. -/
def overlays (classifier : Classifier ρ) (region : Text) : List Span :=
  match classifier.pattern with
  | none => []
  | some pattern =>
    (Engine.findAll pattern region).filterMap fun found =>
      (winnerFrom pattern found 0 classifier.categories).map fun winner =>
        ⟨winner.2, winner.1.style, some winner.1.kind⟩

/-- The same span moved right by a number of characters. -/
def shiftSpan (distance : Nat) (span : Span) : Span :=
  { span with extent := span.extent.shift distance }

theorem start_shiftSpan (distance : Nat) (span : Span) :
    (shiftSpan distance span).extent.start = span.extent.start + distance :=
  rfl

theorem stop_shiftSpan (distance : Nat) (span : Span) :
    (shiftSpan distance span).extent.stop = span.extent.stop + distance :=
  span.extent.stop_shift distance

/-- The span of a token. -/
def spanOf (token : Category × Extent) : Span :=
  ⟨token.2, token.1.style, some token.1.kind⟩

theorem overlays_eq_map (classifier : Classifier ρ) (region : Text) :
    classifier.overlays region = (classifier.winners region).map spanOf := by
  unfold overlays winners
  cases classifier.pattern with
  | none => rfl
  | some pattern =>
    dsimp only
    rw [List.map_filterMap]
    rfl

/-! ## Winners -/

/-- The winner of a match is one of the categories, and its group took part with some text. -/
theorem winnerFrom_sound {pattern : ρ} {found : Found} {position : Nat}
    {categories : List Category} {winner : Category × Extent}
    (h : winnerFrom pattern found position categories = some winner) :
    winner.1 ∈ categories ∧ winner.2.isEmpty = false ∧
      ∃ index, found.group? index = some winner.2 := by
  induction categories generalizing position with
  | nil => cases h
  | cons category rest ih =>
    have hlater (h : winnerFrom pattern found (position + 1) rest = some winner) :
        winner.1 ∈ category :: rest ∧ winner.2.isEmpty = false ∧
          ∃ index, found.group? index = some winner.2 :=
      (ih h).imp_left (List.mem_cons_of_mem category)
    rw [winnerFrom] at h
    cases hgroup : found.group? (groupIndex pattern position) with
    | none =>
      rw [hgroup] at h
      exact hlater h
    | some extent =>
      rw [hgroup] at h
      dsimp only at h
      by_cases hempty : extent.isEmpty = true
      · rw [if_pos hempty] at h
        exact hlater h
      · rw [if_neg hempty] at h
        obtain rfl := Option.some.inj h
        exact ⟨List.mem_cons_self, Bool.not_eq_true _ ▸ hempty, _, hgroup⟩

/--
The winners of matches in a row stand one behind the other, since what a group captures lies
inside its match.
-/
theorem winners_of_row {classifier : Classifier ρ} {pattern : ρ} {region : Text} {offset : Nat}
    {founds : List Found} (h : Found.Row region offset founds) :
    let winners := founds.filterMap fun found =>
      winnerFrom pattern found 0 classifier.categories
    (∀ winner ∈ winners, offset ≤ winner.2.start ∧ winner.2.stop ≤ region.length) ∧
      winners.Pairwise fun a b => a.2.stop ≤ b.2.start := by
  dsimp only
  induction h with
  | nil => exact ⟨List.forall_mem_nil _, .nil⟩
  | @cons offset found rest hle hinside hrest ih =>
    obtain ⟨hlater, hpairwise⟩ := ih
    have hbehind := Nat.le_trans hle hinside.start_le
    rw [List.filterMap_cons]
    cases hwinner : winnerFrom pattern found 0 classifier.categories with
    | none =>
      exact ⟨fun winner hmem => (hlater winner hmem).imp_left (Nat.le_trans hbehind), hpairwise⟩
    | some first =>
      obtain ⟨-, -, index, hgroup⟩ := winnerFrom_sound hwinner
      obtain ⟨hstart, hstop⟩ := hinside.group? hgroup
      refine ⟨List.forall_mem_cons.mpr ⟨?_, ?_⟩, .cons ?_ hpairwise⟩
      · exact ⟨Nat.le_trans hle hstart, Nat.le_trans hstop hinside.reached_le⟩
      · exact fun winner hmem => (hlater winner hmem).imp_left (Nat.le_trans hbehind)
      · exact fun winner hmem => Nat.le_trans hstop (hlater winner hmem).1

/-- A winner is a category of the classifier with some text of the region. -/
theorem mem_winners [Engine.Sound ρ] {classifier : Classifier ρ} {region : Text}
    {winner : Category × Extent} (h : winner ∈ classifier.winners region) :
    winner.1 ∈ classifier.categories ∧ winner.2.start < winner.2.stop ∧
      winner.2.stop ≤ region.length := by
  unfold winners at h
  cases hpattern : classifier.pattern with
  | none =>
    rw [hpattern] at h
    cases h
  | some pattern =>
    rw [hpattern] at h
    have hinside := (winners_of_row (Engine.row_findAll pattern region)).1 winner h
    obtain ⟨found, -, hwinner⟩ := List.mem_filterMap.mp h
    obtain ⟨hmem, hsome, -⟩ := winnerFrom_sound hwinner
    refine ⟨hmem, ?_, hinside.2⟩
    rw [Extent.isEmpty, beq_eq_false_iff_ne] at hsome
    exact Nat.lt_add_of_pos_right (Nat.pos_of_ne_zero hsome)

/-- The winners stand one behind the other. -/
theorem pairwise_winners [Engine.Sound ρ] (classifier : Classifier ρ) (region : Text) :
    (classifier.winners region).Pairwise fun a b => a.2.stop ≤ b.2.start := by
  unfold winners
  cases classifier.pattern with
  | none => exact .nil
  | some pattern => exact (winners_of_row (Engine.row_findAll pattern region)).2

/-- Every span over a region has some text in it, and a kind. -/
theorem mem_overlays [Engine.Sound ρ] {classifier : Classifier ρ} {region : Text} {span : Span}
    (h : span ∈ classifier.overlays region) :
    span.extent.start < span.extent.stop ∧ span.extent.stop ≤ region.length ∧
      span.kind.isSome = true := by
  rw [overlays_eq_map] at h
  obtain ⟨winner, hwinner, rfl⟩ := List.mem_map.mp h
  obtain ⟨-, hsome, hstop⟩ := mem_winners hwinner
  exact ⟨hsome, hstop, rfl⟩

/-! ## The meter -/

section

variable {classifier : Classifier ρ} {pattern : ρ} {text : Text} {lines : Extent}

/--
The meter reads the offsets of the matches.  It is never behind a match that it has not read yet,
since what a group captures lies inside its match and the matches stand in a row.
-/
theorem spansOf_behind (hlines : lines.stop ≤ text.length) {offset i : Nat} {founds : List Found}
    (h : Found.Row (text.slice lines) offset founds) (hi : i ≤ offset) :
    classifier.spansOf pattern (text.slice lines) (text.byteOffset lines.start)
        (.behind text (lines.start + i)) founds =
      ((founds.filterMap fun found => winnerFrom pattern found 0 classifier.categories).map
        spanOf).map (shiftSpan lines.start) := by
  induction h generalizing i with
  | nil => rfl
  | @cons offset found rest hle hinside hrest ih =>
    rw [spansOf, List.filterMap_cons]
    cases hwinner : winnerFrom pattern found 0 classifier.categories with
    | none => exact ih (Nat.le_trans hi (Nat.le_trans hle hinside.start_le))
    | some winner =>
      obtain ⟨category, extent⟩ := winner
      obtain ⟨-, -, index, hgroup⟩ := winnerFrom_sound hwinner
      obtain ⟨hstart, hstop⟩ := hinside.group? hgroup
      have hlast := hinside.reached_le
      rw [Text.length_slice hlines] at hlast
      have hforward : extent.start ≤ extent.stop := Nat.le_add_right _ _
      dsimp only at hstart hstop ⊢
      unfold Extent.stop at hlines
      rw [Text.byteOffset_slice (by omega), Text.byteOffset_slice (by omega),
        OffsetMeter.advance_behind (by omega) (by omega),
        OffsetMeter.advance_behind (by omega) (by omega), ih hstop]
      have hextent : Extent.between (lines.start + extent.start) (lines.start + extent.stop) =
          extent.shift lines.start := by
        rw [Extent.stop, ← Nat.add_assoc, Extent.between_add, Extent.shift, Nat.add_comm]
      rw [OffsetMeter.behind, OffsetMeter.behind]
      dsimp only
      rw [hextent]
      rfl

end

/-- The spans of some lines are the spans over a region, moved to them. -/
theorem classify_eq [Engine.Sound ρ] (classifier : Classifier ρ) (text : Text) (extent : Extent) :
    classifier.classify text extent =
      ⟨text.wholeLines extent, classifier.baseStyle, none⟩ ::
        (classifier.overlays (text.slice (text.wholeLines extent))).map
          (shiftSpan (text.wholeLines extent).start) := by
  have hlines := text.stop_wholeLines_le extent
  rw [classify, Text.linesInBytes_eq, overlays_eq_map, winners]
  dsimp only
  congr 1
  cases classifier.pattern with
  | none => rfl
  | some pattern =>
    dsimp only
    rw [Text.sliceBytes_byteOffset hlines]
    have hrow := Engine.row_findAll pattern (text.slice (text.wholeLines extent))
    exact spansOf_behind hlines hrow (Nat.le_refl 0)

/-! ## Lines as a text of their own -/

/-- The spans of a whole text. -/
def highlight (classifier : Classifier ρ) (text : Text) : List Span :=
  classifier.classify text (Extent.whole text)

/-- The spans of a whole text are the base style and the spans over it. -/
theorem highlight_eq [Engine.Sound ρ] (classifier : Classifier ρ) (text : Text) :
    classifier.highlight text =
      ⟨Extent.whole text, classifier.baseStyle, none⟩ :: classifier.overlays text := by
  have hshift : (classifier.overlays text).map (shiftSpan 0) = classifier.overlays text :=
    List.map_id _
  rw [highlight, classify_eq, Text.wholeLines_whole, Text.slice_whole, Extent.whole, hshift]

/-- The spans of some lines are those of the lines as a text of their own, moved to them. -/
theorem classify_eq_map_highlight [Engine.Sound ρ] (classifier : Classifier ρ) (text : Text)
    (extent : Extent) :
    classifier.classify text extent =
      (classifier.highlight (text.slice (text.wholeLines extent))).map
        (shiftSpan (text.wholeLines extent).start) := by
  have hlength := Text.length_slice (text.stop_wholeLines_le extent)
  have hbase : shiftSpan (text.wholeLines extent).start
      ⟨Extent.whole (text.slice (text.wholeLines extent)), classifier.baseStyle, none⟩ =
        ⟨text.wholeLines extent, classifier.baseStyle, none⟩ := by
    simp [shiftSpan, Extent.shift, Extent.whole, hlength]
  rw [classify_eq, highlight_eq, List.map_cons, hbase]

/-! ## Spans that select what was matched -/

/-- A span over some lines selects what the winner of a match matched in them. -/
structure Selects (text : Text) (lines : Extent) (winner : Category × Extent) (span : Span) :
    Prop where
  style : span.style = winner.1.style
  kind : span.kind = some winner.1.kind
  /-- The span begins and ends at the bytes of the match, behind the first byte of the lines. -/
  start : text.byteOffset span.extent.start =
    text.byteOffset lines.start + (text.slice lines).byteOffset winner.2.start
  stop : text.byteOffset span.extent.stop =
    text.byteOffset lines.start + (text.slice lines).byteOffset winner.2.stop
  selected : text.slice span.extent = (text.slice lines).sliceBytes
    ((text.slice lines).byteOffset winner.2.start) ((text.slice lines).byteOffset winner.2.stop)

/-- The span of a winner, moved to the lines, selects what it matched. -/
theorem selects_shiftSpan {text : Text} {lines : Extent} (hlines : lines.stop ≤ text.length)
    {winner : Category × Extent} (hwinner : winner.2.stop ≤ lines.length) :
    Selects text lines winner (shiftSpan lines.start (spanOf winner)) := by
  obtain ⟨category, start, length⟩ := winner
  have hstop : start + length ≤ lines.length := hwinner
  refine ⟨rfl, rfl, ?_, ?_, ?_⟩
  · have hstart : start ≤ lines.length := Nat.le_trans (Nat.le_add_right start length) hstop
    rw [start_shiftSpan, Nat.add_comm]
    exact (Text.byteOffset_slice hstart).symm
  · rw [stop_shiftSpan, Nat.add_comm]
    exact (Text.byteOffset_slice hstop).symm
  · rw [Text.sliceBytes_byteOffset (Text.length_slice hlines ▸ hwinner), Text.slice_slice hwinner]
    rfl

/--
The spans of the lines that an extent touches, for all categories and every extent: the base style
over all of these lines, and over it the winners of the matches in them.  Their spans have some
text in them, stand one behind the other inside the lines, and select what was matched.
-/
theorem classify_selects (categories : List Category) (baseStyle : Style) (text : Text)
    (extent : Extent) :
    let classifier := ofCategories categories baseStyle
    let lines := text.wholeLines extent
    classifier.categories.Sublist categories ∧ lines.stop ≤ text.length ∧ ∃ spans,
      classifier.classify text extent = ⟨lines, baseStyle, none⟩ :: spans ∧
      List.Forall₂ (Selects text lines) (classifier.winners (text.slice lines)) spans ∧
      (∀ span ∈ spans, span.extent.start < span.extent.stop ∧
        lines.start ≤ span.extent.start ∧ span.extent.stop ≤ lines.stop ∧
        ∃ category ∈ classifier.categories,
          span.style = category.style ∧ span.kind = some category.kind) ∧
      spans.Pairwise fun a b =>
        a.extent.start < b.extent.start ∧ a.extent.stop ≤ b.extent.start := by
  intro classifier lines
  have hlines : lines.stop ≤ text.length := text.stop_wholeLines_le extent
  have hlength : (text.slice lines).length = lines.length := Text.length_slice hlines
  have hclassify : classifier.classify text extent = ⟨lines, baseStyle, none⟩ ::
      ((classifier.winners (text.slice lines)).map spanOf).map (shiftSpan lines.start) := by
    rw [classify_eq, overlays_eq_map, baseStyle_ofCategories]
  refine ⟨sublist_categories categories baseStyle, hlines, _, hclassify, ?_, ?_, ?_⟩
  · rw [List.map_map, List.forall₂_map_right_iff, List.forall₂_same]
    intro winner hmem
    exact selects_shiftSpan hlines (hlength ▸ (mem_winners hmem).2.2)
  · rw [List.map_map]
    intro span hspan
    obtain ⟨winner, hmem, rfl⟩ := List.mem_map.mp hspan
    obtain ⟨hcategory, hsome, hstop⟩ := mem_winners hmem
    rw [hlength] at hstop
    rw [Function.comp_apply, start_shiftSpan, stop_shiftSpan]
    refine ⟨?_, Nat.le_add_left _ _, ?_, winner.1, hcategory, rfl, rfl⟩
    · exact Nat.add_lt_add_right hsome lines.start
    · rw [Nat.add_comm]
      exact Nat.add_le_add_left hstop lines.start
  · rw [List.map_map, List.pairwise_map]
    refine (pairwise_winners classifier (text.slice lines)).imp_of_mem ?_
    intro a b ha _ hle
    obtain ⟨-, hsome, -⟩ := mem_winners ha
    rw [Function.comp_apply, Function.comp_apply, start_shiftSpan, start_shiftSpan,
      stop_shiftSpan]
    constructor
    · exact Nat.add_lt_add_right (Nat.lt_of_lt_of_le hsome hle) lines.start
    · exact Nat.add_le_add_right hle lines.start

end Classifier

/-! ## Equal lines -/

/--
What a classifier does to some lines is what it does to them as a text of their own, moved to where
they stand.  So equal lines that begin at the same offset get the same spans, whatever stands
around them.
-/
theorem Highlighter.classify_eq_map_refreshAll (highlighter : Highlighter) :
    (∀ text extent, highlighter.classifier.classify text extent =
      (highlighter.refreshAll (text.slice (text.wholeLines extent))).map
        (Classifier.shiftSpan (text.wholeLines extent).start)) ∧
    ∀ text text' extent extent',
      text.slice (text.wholeLines extent) = text'.slice (text'.wholeLines extent') →
      (text.wholeLines extent).start = (text'.wholeLines extent').start →
      highlighter.classifier.classify text extent =
        highlighter.classifier.classify text' extent' := by
  have hlines (text : Text) (extent : Extent) : highlighter.classifier.classify text extent =
      (highlighter.refreshAll (text.slice (text.wholeLines extent))).map
        (Classifier.shiftSpan (text.wholeLines extent).start) :=
    highlighter.classifier.classify_eq_map_highlight text extent
  refine ⟨hlines, ?_⟩
  intro text text' extent extent' hslice hstart
  rw [hlines text extent, hlines text' extent', hslice, hstart]

/-- A line keeps its spans when the characters on the other lines change. -/
theorem Highlighter.classify_other_lines :
    let keyword : Category := ⟨.keyword, "if".toList, .heavy (.rgb 0 0 255)⟩
    let highlighter : Highlighter := ⟨.ofCategories [keyword] (.regular (.rgb 0 0 0)), false⟩
    let text : Text := "€\nif é\n𝄞".toList
    let text' : Text := "a\nif é\n".toList
    let spans : List Span := [⟨⟨2, 5⟩, .regular (.rgb 0 0 0), none⟩,
      ⟨⟨2, 2⟩, keyword.style, some .keyword⟩]
    text.slice (text.wholeLines ⟨3, 1⟩) = text'.slice (text'.wholeLines ⟨6, 0⟩) ∧
      (text.wholeLines ⟨3, 1⟩).start = (text'.wholeLines ⟨6, 0⟩).start ∧
      highlighter.classifier.classify text ⟨3, 1⟩ = spans ∧
      highlighter.classifier.classify text' ⟨6, 0⟩ = spans := by
  intro keyword highlighter text text' spans
  have hslice : text.slice (text.wholeLines ⟨3, 1⟩) = text'.slice (text'.wholeLines ⟨6, 0⟩) := by
    decide
  have hstart : (text.wholeLines ⟨3, 1⟩).start = (text'.wholeLines ⟨6, 0⟩).start := by decide
  have hspans : highlighter.classifier.classify text ⟨3, 1⟩ = spans := by decide +kernel
  refine ⟨hslice, hstart, hspans, ?_⟩
  rw [← (highlighter.classify_eq_map_refreshAll).2 text text' ⟨3, 1⟩ ⟨6, 0⟩ hslice hstart]
  exact hspans

end ScratchEditor

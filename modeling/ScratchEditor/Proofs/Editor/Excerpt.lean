import ScratchEditor.Proofs.Editor.Repaint
import ScratchEditor.Proofs.Token.Tokens

/-!
# Highlighting some lines and highlighting all

If no token of the whole text stands on both sides of the beginning or the end of the lines
that an extent touches, classifying these lines by themselves finds the tokens that the whole
text has on them.

Main definitions:

- `Span.overlays`: the spans of tokens among some spans.
- `Span.Inside`: a span stands in an extent.

Main results:

- `Classifier.overlays_classify`: the tokens on some lines are those of the whole text.
-/

namespace ScratchEditor

/-- The spans of tokens, which lie over the base style. -/
def Span.overlays (spans : List Span) : List Span :=
  spans.filter (·.kind.isSome)

/-- A span begins and ends in an extent. -/
def Span.Inside (span : Span) (extent : Extent) : Prop :=
  extent.start ≤ span.extent.start ∧ span.extent.stop ≤ extent.stop

instance (span : Span) (extent : Extent) : Decidable (span.Inside extent) :=
  inferInstanceAs (Decidable (_ ∧ _))

instance (span : Span) (offset : Nat) : Decidable (span.Crosses offset) :=
  inferInstanceAs (Decidable (_ ∧ _))

/-- Of spans before an extent, inside of it and behind it those inside stay. -/
theorem Span.filter_inside {extent : Extent} {earlier inside later : List Span}
    (hsome : ∀ span ∈ earlier ++ (inside ++ later), span.extent.start < span.extent.stop)
    (hearlier : ∀ span ∈ earlier, span.extent.stop ≤ extent.start)
    (hinside : ∀ span ∈ inside, span.Inside extent)
    (hlater : ∀ span ∈ later, extent.stop ≤ span.extent.start) :
    (earlier ++ (inside ++ later)).filter (fun span => span.Inside extent) = inside := by
  have hfirst : earlier.filter (fun span => span.Inside extent) = [] := by
    rw [List.filter_eq_nil_iff]
    intro span hmem
    have hlt := hsome span (List.mem_append_left _ hmem)
    have hstop := hearlier span hmem
    rw [decide_eq_true_eq]
    unfold Span.Inside
    omega
  have hlast : later.filter (fun span => span.Inside extent) = [] := by
    rw [List.filter_eq_nil_iff]
    intro span hmem
    have hlt := hsome span (List.mem_append_right _ (List.mem_append_right _ hmem))
    have hstart := hlater span hmem
    rw [decide_eq_true_eq]
    unfold Span.Inside
    omega
  have hmiddle : inside.filter (fun span => span.Inside extent) = inside := by
    rw [List.filter_eq_self]
    exact fun span hmem => decide_eq_true (hinside span hmem)
  rw [List.filter_append, List.filter_append, hfirst, hlast, hmiddle, List.append_nil,
    List.nil_append]

namespace Classifier

/-- The spans of tokens that classifying some lines gives. -/
theorem overlays_classify (classifier : Classifier) (text : Text) (extent : Extent) :
    Span.overlays (classifier.classify text extent) =
      (classifier.overlays (text.slice (text.wholeLines extent))).map
        (shiftSpan (text.wholeLines extent).start) := by
  rw [classify_eq, Span.overlays, List.filter_cons_of_neg (by simp), List.filter_eq_self]
  intro span hmem
  obtain ⟨own, hown, rfl⟩ := List.mem_map.mp hmem
  exact (mem_overlays hown).2.2

/-- The spans of tokens of a whole text. -/
theorem overlays_highlight (classifier : Classifier) (text : Text) :
    Span.overlays (classifier.highlight text) = classifier.overlays text := by
  unfold Span.overlays
  rw [highlight_eq, List.filter_cons_of_neg (by simp), List.filter_eq_self]
  exact fun span hmem => (mem_overlays hmem).2.2

/-- Which categories are accepted does not depend on the base style. -/
theorem ofCategories_restyle (categories : List Category) (first second : Style) :
    ofCategories categories second =
      { ofCategories categories first with baseStyle := second } := by
  have hadd (classifier : Classifier) (category : Category) :
      add { classifier with baseStyle := second } category =
        { add classifier category with baseStyle := second } := by
    simp only [add]
    split <;> rfl
  have hfoldl : ∀ classifier : Classifier,
      categories.foldl add { classifier with baseStyle := second } =
        { categories.foldl add classifier with baseStyle := second } := by
    induction categories with
    | nil => exact fun _ => rfl
    | cons category rest ih =>
      intro classifier
      rw [List.foldl_cons, List.foldl_cons, hadd, ih]
  exact hfoldl (plain first)

/-- Settings with some colors and keywords. -/
theorem overlays_table_eq_ofSettings (colors : TokenColors) (keywords : List Text)
    (baseStyle : Style) :
    ∃ settings : Settings, settings.keywords = keywords ∧
      (ofCategories (Category.table colors keywords) baseStyle).overlays =
        (ofSettings settings).overlays := by
  refine ⟨{ Settings.standard with
    theme := { Theme.standard with tokens := colors }, keywords := keywords }, rfl, ?_⟩
  have hrestyle (classifier : Classifier) (style : Style) :
      overlays { classifier with baseStyle := style } = classifier.overlays := rfl
  have hsame := congrArg overlays (ofCategories_restyle (Category.table colors keywords) baseStyle
    (.regular colors.text))
  exact (hsame.trans (hrestyle (ofCategories _ baseStyle) _)).symm

/-- The tokens on some lines, if no token of the text stands on both sides of their ends. -/
theorem overlays_part {settings : Settings}
    (hkeywords : ∀ keyword ∈ settings.keywords, '\n' ∉ keyword)
    {text before lines after : Text} (h : Part text before lines [] after)
    (hcross : ∀ span ∈ (ofSettings settings).overlays text,
      ¬ span.Crosses before.length ∧ ¬ span.Crosses (before.length + lines.length)) :
    ((ofSettings settings).overlays lines).map (shiftSpan before.length) =
      ((ofSettings settings).overlays text).filter fun span =>
        span.Inside ⟨before.length, lines.length⟩ := by
  obtain ⟨earlier, inside, later, behind, hwhole, hown, hearlier, hlater, hbehind⟩ :=
    h.exists_overlays (h.keywordEnds_of_line hkeywords) fun span hmem => by
      obtain ⟨hbegin, hend⟩ := hcross span hmem
      refine ⟨hbegin, fun hstart => ?_⟩
      unfold Span.Crosses at hend
      omega
  rw [List.append_nil] at hown
  have hlines (span : Span) (hmem : span ∈ (ofSettings settings).overlays lines) :=
    mem_overlays hmem
  -- No token of the lines begins behind them.
  have hnone : behind = [] := by
    rw [List.eq_nil_iff_forall_not_mem]
    intro span hmem
    obtain ⟨hlt, hstop, -⟩ := hlines span (by rw [hown]; exact List.mem_append_right _ hmem)
    have hstart := hbehind span hmem
    omega
  rw [hnone, List.append_nil] at hown
  rw [hwhole, hown, Span.filter_inside ?_ hearlier ?_ hlater]
  · rw [← hwhole]
    exact fun span hmem => (mem_overlays hmem).1
  · intro span hmem
    obtain ⟨own, hmem', rfl⟩ := List.mem_map.mp hmem
    obtain ⟨-, hstop, -⟩ := hlines own (by rw [hown]; exact hmem')
    refine ⟨Nat.le_add_left _ _, ?_⟩
    rw [stop_shiftSpan, Nat.add_comm]
    exact Nat.add_le_add_left hstop before.length

/--
The tokens of the lines that an extent touches are the tokens that the whole text has in them,
if no token of the whole text stands on both sides of their beginning or their end.
-/
theorem overlays_classify_of_not_crosses (colors : TokenColors) {keywords : List Text}
    (hkeywords : ∀ keyword ∈ keywords, keyword ≠ [] ∧ '\n' ∉ keyword) (baseStyle : Style)
    (text : Text) (extent : Extent)
    (hcross : ∀ span ∈ Span.overlays
      ((ofCategories (Category.table colors keywords) baseStyle).highlight text),
        ¬ span.Crosses (text.wholeLines extent).start ∧
          ¬ span.Crosses (text.wholeLines extent).stop) :
    Span.overlays ((ofCategories (Category.table colors keywords) baseStyle).classify text extent) =
      (Span.overlays
        ((ofCategories (Category.table colors keywords) baseStyle).highlight text)).filter
          fun span => span.Inside (text.wholeLines extent) := by
  obtain ⟨settings, hsettings, hsame⟩ := overlays_table_eq_ofSettings colors keywords baseStyle
  obtain ⟨before, touched, after, htext, hregion, hbegins, hends⟩ := text.exists_wholeLines extent
  have hpart : Part text before touched [] after := by
    refine ⟨htext, hbegins, hends.imp_right fun hnil => ⟨rfl, hnil⟩, ?_⟩
    rw [List.append_nil]
    refine hends.imp_right fun hnil => ?_
    rw [hnil]
    exact fun c hc => nomatch hc
  have hslice : text.slice ⟨before.length, touched.length⟩ = touched := by
    unfold Text.slice
    dsimp only
    rw [htext, List.drop_left, List.take_left]
  rw [overlays_highlight, hregion, hsame] at hcross
  rw [overlays_classify, overlays_highlight, hregion, hslice, hsame]
  refine overlays_part ?_ hpart hcross
  rw [hsettings]
  exact fun keyword hmem => (hkeywords keyword hmem).2

/-- The second of three lines by itself has the keyword and the number that it has in the text. -/
theorem overlays_classify_second_of_three :
    (∀ keyword ∈ ["if".toList], keyword ≠ [] ∧ '\n' ∉ keyword) ∧
    (∀ span ∈ Span.overlays ((ofCategories (Category.table .standard ["if".toList])
      (.regular (.rgb 0 0 0))).highlight "\"a\"\nif 2\n// x".toList),
        ¬ span.Crosses (Text.wholeLines "\"a\"\nif 2\n// x".toList ⟨5, 0⟩).start ∧
          ¬ span.Crosses (Text.wholeLines "\"a\"\nif 2\n// x".toList ⟨5, 0⟩).stop) ∧
    Span.overlays ((ofCategories (Category.table .standard ["if".toList])
      (.regular (.rgb 0 0 0))).classify "\"a\"\nif 2\n// x".toList ⟨5, 0⟩) =
        [⟨⟨4, 2⟩, TokenColors.standard.style .keyword, some .keyword⟩,
          ⟨⟨7, 1⟩, TokenColors.standard.style .number, some .number⟩] := by
  have hkeywords : ∀ keyword ∈ ["if".toList], keyword ≠ [] ∧ '\n' ∉ keyword := by decide
  have hcross : ∀ span ∈ Span.overlays ((ofCategories (Category.table .standard ["if".toList])
      (.regular (.rgb 0 0 0))).highlight "\"a\"\nif 2\n// x".toList),
        ¬ span.Crosses (Text.wholeLines "\"a\"\nif 2\n// x".toList ⟨5, 0⟩).start ∧
          ¬ span.Crosses (Text.wholeLines "\"a\"\nif 2\n// x".toList ⟨5, 0⟩).stop := by
    decide +kernel
  refine ⟨hkeywords, hcross, ?_⟩
  rw [overlays_classify_of_not_crosses .standard hkeywords _ _ _ hcross]
  decide +kernel

end Classifier

end ScratchEditor

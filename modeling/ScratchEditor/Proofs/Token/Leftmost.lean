import ScratchEditor.Proofs.Token.Groups
import ScratchEditor.Proofs.Token.Heads

/-!
# Scanning by category

Without the combined pattern a region would be scanned category by category: the next
token begins at the first offset where the pattern of some category matches, it goes to
the first category of which this holds, and the scan goes on behind it.  The classifier
finds the same spans, as long as no category matches the empty text.

Main definitions:

- `Category.matchAt?`: the match of the pattern of a category at an offset.
- `Leftmost`: the tokens of the scan category by category.

Main results:

- `Classifier.classify_eq_leftmost`: the spans of a classifier are those of this scan.
-/

namespace ScratchEditor

/-- The tokens that a scan category by category finds from an offset on. -/
inductive Leftmost (ρ : Type) [Engine ρ] (categories : List Category) (text : Text) :
    Nat → List (Category × Extent) → Prop
  /-- No category matches from here on. -/
  | done {offset : Nat}
      (hnone : ∀ k, offset ≤ k → k ≤ text.length →
        ∀ category ∈ categories, category.matchAt? ρ text k = none) :
      Leftmost ρ categories text offset []
  /-- The leftmost match goes to the first category that has one there. -/
  | token {offset k : Nat} {before after : List Category} {category : Category}
      {extent : Extent} {tokens : List (Category × Extent)} (hfrom : offset ≤ k)
      (hto : k ≤ text.length)
      (hleftmost : ∀ j, offset ≤ j → j < k →
        ∀ other ∈ categories, other.matchAt? ρ text j = none)
      (hcategories : categories = before ++ category :: after)
      (hfirst : ∀ other ∈ before, other.matchAt? ρ text k = none)
      (hmatch : category.matchAt? ρ text k = some extent)
      (hnext : Leftmost ρ categories text extent.stop tokens) :
      Leftmost ρ categories text offset ((category, extent) :: tokens)

namespace Leftmost

variable {ρ : Type} [Engine ρ] {categories : List Category} {text : Text}

/-- A scan may begin earlier, where no category matches. -/
theorem back {offset : Nat} {tokens : List (Category × Extent)}
    (hnone : ∀ category ∈ categories, category.matchAt? ρ text offset = none)
    (h : Leftmost ρ categories text (offset + 1) tokens) :
    Leftmost ρ categories text offset tokens := by
  cases h with
  | done hrest =>
    refine done fun k hfrom hto => ?_
    rcases Nat.eq_or_lt_of_le hfrom with rfl | hlt
    · exact hnone
    · exact hrest k hlt hto
  | token hfrom hto hleftmost hcategories hfirst hmatch hnext =>
    refine token (Nat.le_of_succ_le hfrom) hto ?_ hcategories hfirst hmatch hnext
    intro j hj hlt
    rcases Nat.eq_or_lt_of_le hj with rfl | hlater
    · exact hnone
    · exact hleftmost j hlater hlt

/-- The scan category by category is a scan with the first match at every offset. -/
theorem scan {offset : Nat} {tokens : List (Category × Extent)}
    (h : Leftmost ρ categories text offset tokens) :
    Scan (Category.firstOf ρ categories text) text.length offset tokens := by
  -- Up to an offset where nothing matches before, the scan moves on.
  have hmove : ∀ offset k tokens, offset ≤ k → k ≤ text.length + 1 →
      (∀ j, offset ≤ j → j < k → ∀ category ∈ categories, category.matchAt? ρ text j = none) →
      Scan (Category.firstOf ρ categories text) text.length k tokens →
      Scan (Category.firstOf ρ categories text) text.length offset tokens := by
    intro offset k tokens hle hlimit hnone hscan
    induction hle using Nat.decreasingInduction with
    | self => exact hscan
    | of_succ j hlt ih =>
      refine Scan.skip (by omega) ?_ (ih fun i hi => hnone i (Nat.le_of_succ_le hi))
      exact Category.firstOf_eq_none_iff.mpr (hnone j (Nat.le_refl _) hlt)
  induction h with
  | @done offset hnone =>
    by_cases hle : offset ≤ text.length + 1
    · refine hmove offset (text.length + 1) [] hle (Nat.le_refl _) ?_
        (Scan.stop (Nat.lt_succ_self _))
      intro j hj hlt
      exact hnone j hj (Nat.le_of_lt_succ hlt)
    · exact Scan.stop (by omega)
  | token hfrom hto hleftmost hcategories hfirst hmatch hnext ih =>
    refine hmove _ _ _ hfrom (by omega) hleftmost (Scan.take hto ?_ ih)
    exact Category.firstOf_eq_some_iff.mpr ⟨_, _, hcategories, hfirst, hmatch⟩

/-- A scan with the first match at every offset is the scan category by category. -/
theorem of_scan {offset : Nat} {tokens : List (Category × Extent)}
    (h : Scan (Category.firstOf ρ categories text) text.length offset tokens) :
    Leftmost ρ categories text offset tokens := by
  induction h with
  | stop hlimit =>
    exact done fun k hfrom hto => absurd (Nat.le_trans hfrom hto) (Nat.not_le.mpr hlimit)
  | skip hlimit hhead hnext ih => exact ih.back (Category.firstOf_eq_none_iff.mp hhead)
  | take hlimit hhead hnext ih =>
    obtain ⟨before, after, hcategories, hbefore, hmatch⟩ := Category.firstOf_eq_some_iff.mp hhead
    exact token (Nat.le_refl _) hlimit
      (fun j hfrom hlt => absurd hfrom (Nat.not_le.mpr hlt)) hcategories hbefore hmatch ih

end Leftmost

/-- Without empty matches the token at an offset is that of the first category that matches. -/
theorem Category.headOf_eq_firstOf {ρ : Type} [Engine ρ] {categories : List Category} {text : Text}
    {offset : Nat} (hsome : ∀ category ∈ categories,
      ∀ extent ∈ category.matchAt? ρ text offset, extent.isEmpty = false) :
    headOf ρ categories text offset = firstOf ρ categories text offset := by
  unfold headOf
  cases hfirst : firstOf ρ categories text offset with
  | none => rfl
  | some token =>
    obtain ⟨before, after, hcategories, -, hmatch⟩ := firstOf_eq_some_iff.mp hfirst
    have hmem : token.1 ∈ categories := by simp [hcategories]
    exact Option.filter_some_pos (by simp [hsome token.1 hmem token.2 hmatch])

namespace Classifier

/--
The spans of the lines an extent touches are the base style and the tokens of the scan
category by category, as long as no category that is looked for matches the empty text in
these lines.  This holds with every engine that is leftmost-first.
-/
theorem classify_eq_leftmost {ρ : Type} [Engine ρ] [Engine.LeftmostFirst ρ]
    (categories : List Category) (baseStyle : Style) (text : Text) (extent : Extent)
    (halone : ∀ category ∈ categories, ∃ own : ρ, Engine.compile category.pattern = .ok own)
    (hsome : ∀ category ∈ (ofCategories categories baseStyle : Classifier ρ).categories,
      ∀ k ≤ (text.slice (text.wholeLines extent)).length,
        ∀ own ∈ category.matchAt? ρ (text.slice (text.wholeLines extent)) k, own.isEmpty = false) :
    (∃ tokens, Leftmost ρ (ofCategories categories baseStyle : Classifier ρ).categories
        (text.slice (text.wholeLines extent)) 0 tokens) ∧
      ∀ tokens, Leftmost ρ (ofCategories categories baseStyle : Classifier ρ).categories
          (text.slice (text.wholeLines extent)) 0 tokens →
        (ofCategories categories baseStyle : Classifier ρ).classify text extent =
          ⟨text.wholeLines extent, baseStyle, none⟩ :: tokens.map fun token =>
            ⟨token.2.shift (text.wholeLines extent).start, token.1.style, some token.1.kind⟩ := by
  have haccepted := accepted_ofCategories categories baseStyle fun category hmem =>
    halone category ((sublist_categories categories baseStyle).subset hmem)
  obtain ⟨tokens, hscan, hoverlays⟩ :=
    overlays_eq haccepted (text.slice (text.wholeLines extent))
  have hheads := hscan.congr fun k hk => Category.headOf_eq_firstOf fun category hmem own hown =>
    hsome category hmem k hk own hown
  refine ⟨⟨tokens, Leftmost.of_scan hheads⟩, ?_⟩
  intro tokens' hleftmost
  have hsame : tokens = tokens' := hheads.unique hleftmost.scan
  rw [classify_eq, baseStyle_ofCategories, hoverlays, hsame, List.map_map]
  rfl

/-- A keyword that also stands in remarks. -/
def conditional : Category :=
  ⟨.keyword, "\\bif\\b".toList, .heavy (.rgb 0 0 255)⟩

/-- A remark up to the end of the line. -/
def remark : Category :=
  ⟨.comment, "#.*".toList, .regular (.rgb 0 128 0)⟩

/-- A keyword in a remark belongs to the remark, which begins further left. -/
theorem classify_conditional_remark :
    (ofCategories [conditional, remark] (.regular (.rgb 0 0 0)) : Classifier).classify
        "x\nif y # if\nz".toList ⟨3, 1⟩ =
      [⟨⟨2, 10⟩, .regular (.rgb 0 0 0), none⟩, ⟨⟨2, 2⟩, conditional.style, some .keyword⟩,
        ⟨⟨7, 4⟩, remark.style, some .comment⟩] := by
  have haccepted : (ofCategories [conditional, remark] (.regular (.rgb 0 0 0))).categories =
      [conditional, remark] := by
    decide +kernel
  have hregion : Text.slice "x\nif y # if\nz".toList
      (Text.wholeLines "x\nif y # if\nz".toList ⟨3, 1⟩) = "if y # if\n".toList := by
    decide
  have hparse : ∀ category ∈ [conditional, remark],
      ∃ own : Pattern, Engine.compile category.pattern = .ok own := by
    simp only [List.mem_cons, List.not_mem_nil, or_false, forall_eq_or_imp, forall_eq]
    exact ⟨⟨_, rfl⟩, ⟨_, rfl⟩⟩
  have hnone : Leftmost Pattern [conditional, remark] "if y # if\n".toList 9 [] := by
    refine Leftmost.done fun k hfrom hto => ?_
    have hk : k = 9 ∨ k = 10 := by
      have hlength : "if y # if\n".toList.length = 10 := rfl
      omega
    rcases hk with rfl | rfl <;> decide +kernel
  have hleftmost : Leftmost Pattern [conditional, remark] "if y # if\n".toList 0
      [(conditional, ⟨0, 2⟩), (remark, ⟨5, 4⟩)] := by
    have hbetween : ∀ j, 2 ≤ j → j < 5 → ∀ other ∈ [conditional, remark],
        other.matchAt? Pattern "if y # if\n".toList j = none := by
      intro j hfrom hto
      have hj : j = 2 ∨ j = 3 ∨ j = 4 := by omega
      rcases hj with rfl | rfl | rfl <;> decide +kernel
    have hremark :
        Leftmost Pattern [conditional, remark] "if y # if\n".toList 2 [(remark, ⟨5, 4⟩)] := by
      refine @Leftmost.token Pattern _ _ _ 2 5 [conditional] [] remark ⟨5, 4⟩ [] (by decide)
        (by decide) hbetween rfl ?_ ?_ hnone <;> decide +kernel
    refine @Leftmost.token Pattern _ _ _ 0 0 [] [remark] conditional ⟨0, 2⟩ _ (by decide)
      (by decide) ?_ rfl ?_ ?_ hremark
    · intro j _ hlt
      exact absurd hlt (Nat.not_lt_zero j)
    · exact List.forall_mem_nil _
    · decide +kernel
  have hspans := (classify_eq_leftmost [conditional, remark] (.regular (.rgb 0 0 0))
    "x\nif y # if\nz".toList ⟨3, 1⟩ hparse (by
      rw [haccepted, hregion]
      decide +kernel)).2 [(conditional, ⟨0, 2⟩), (remark, ⟨5, 4⟩)] (by
        rw [haccepted, hregion]
        exact hleftmost)
  exact hspans

end Classifier

end ScratchEditor

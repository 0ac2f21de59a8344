import ScratchEditor.Pattern.Engine
import ScratchEditor.Text.Encoding
import ScratchEditor.Text.Line
import ScratchEditor.Token.Category

/-!
# Classifying text

All categories are looked for at once, with one pattern that has a group for
each of them in order of precedence.  A category whose pattern does not fit into
it is left out.  The pattern may be one of any engine.

What is classified is a region of whole lines.  Its first span gives the region
the base style; the spans after it lie over it, one for each match in which the
group of some category took part with some text.

Main definitions:

- `Classifier.ofCategories`: the classifier of a list of categories.
- `Classifier.classify`: the spans of the lines that an extent touches.
-/

namespace ScratchEditor

/-- A stretch of text with its style; the region as a whole belongs to no kind. -/
structure Span where
  extent : Extent
  style : Style
  kind : Option TokenKind
deriving DecidableEq

/-- The name of the group of a category by its position. -/
def groupName (position : Nat) : Text :=
  "cat_".toList ++ decimal position

/-- The alternative of the combined pattern for a category at a position. -/
def categoryAlternative (position : Nat) (category : Category) : Text :=
  "(?P<".toList ++ groupName position ++ '>' :: category.pattern ++ [')']

/-- The pattern that combines categories, the first of which has a given position. -/
def combinedFrom : Nat → List Category → List Text
  | _, [] => []
  | position, category :: rest =>
    categoryAlternative position category :: combinedFrom (position + 1) rest

/-- The text of the pattern that combines categories. -/
def combinedSource (categories : List Category) : Text :=
  joinAlternatives (combinedFrom 0 categories)

/-- The categories looked for, their combined pattern, and the style of everything else. -/
structure Classifier (ρ : Type := Pattern) where
  categories : List Category
  pattern : Option ρ
  baseStyle : Style

namespace Classifier

variable {ρ : Type}

/-- A classifier that looks for nothing. -/
def plain (baseStyle : Style) : Classifier ρ :=
  ⟨[], none, baseStyle⟩

variable [Engine ρ]

/-- The classifier with one more category, if the combined pattern still stands with it. -/
def add (classifier : Classifier ρ) (category : Category) : Classifier ρ :=
  let categories := classifier.categories ++ [category]
  match Engine.compile (combinedSource categories) with
  | .ok pattern => { classifier with categories := categories, pattern := some pattern }
  | .error _ => classifier

/-- The classifier of a list of categories. -/
def ofCategories (categories : List Category) (baseStyle : Style) : Classifier ρ :=
  categories.foldl add (plain baseStyle)

/-- The classifier that settings give. -/
def ofSettings (settings : Settings) : Classifier ρ :=
  ofCategories (Category.table settings.theme.tokens settings.keywords)
    (.regular settings.theme.tokens.text)

/-- The group of the category at a position; a pattern without such a group stands in whole. -/
def groupIndex (pattern : ρ) (position : Nat) : Nat :=
  (Engine.indexOf? pattern (groupName position)).getD 0

/-- What a match gives to the categories from a position on: the first one with some text. -/
def winnerFrom (pattern : ρ) (found : Found) :
    Nat → List Category → Option (Category × Extent)
  | _, [] => none
  | position, category :: rest =>
    match found.group? (groupIndex pattern position) with
    | some extent =>
      if extent.isEmpty then winnerFrom pattern found (position + 1) rest
      else some (category, extent)
    | none => winnerFrom pattern found (position + 1) rest

/--
The spans of matches one behind the other in a region whose first byte is given.  A match stands
at bytes of the region, which the meter turns into offsets of characters of the whole text; a
match that goes to no category leaves it in place.
-/
def spansOf (classifier : Classifier ρ) (pattern : ρ) (region : Text) (first : Nat) :
    OffsetMeter → List Found → List Span
  | _, [] => []
  | meter, found :: rest =>
    match winnerFrom pattern found 0 classifier.categories with
    | none => classifier.spansOf pattern region first meter rest
    | some (category, extent) =>
      let atStart := meter.advance (first + region.byteOffset extent.start)
      let atStop := atStart.advance (first + region.byteOffset extent.stop)
      ⟨Extent.between atStart.chars atStop.chars, category.style, some category.kind⟩ ::
        classifier.spansOf pattern region first atStop rest

/--
The spans of the whole lines that an extent touches.  These lines are cut out of the text by
their bytes, and the meter begins where they do.
-/
def classify (classifier : Classifier ρ) (text : Text) (extent : Extent) : List Span :=
  let lines := text.linesInBytes extent
  ⟨lines.extent, classifier.baseStyle, none⟩ ::
    match classifier.pattern with
    | none => []
    | some pattern =>
      let region := text.sliceBytes lines.firstByte lines.stopByte
      classifier.spansOf pattern region lines.firstByte
        ⟨text, lines.firstByte, lines.extent.start⟩ (Engine.findAll pattern region)

omit [Engine ρ] in
@[simp]
theorem categories_plain (baseStyle : Style) : (plain baseStyle : Classifier ρ).categories = [] :=
  rfl

/-- A category with which the combined pattern still stands comes last. -/
theorem add_of_ok {classifier : Classifier ρ} {category : Category} {pattern : ρ}
    (h : Engine.compile (combinedSource (classifier.categories ++ [category])) = .ok pattern) :
    classifier.add category =
      { classifier with
        categories := classifier.categories ++ [category]
        pattern := some pattern } := by
  simp only [add, h]

/-- A category with which the combined pattern falls is left out. -/
theorem add_of_error {classifier : Classifier ρ} {category : Category} {cause : PatternError}
    (h : (Engine.compile (combinedSource (classifier.categories ++ [category])) :
      Except PatternError ρ) = .error cause) :
    classifier.add category = classifier := by
  simp only [add, h]

/-- The last category of a list is added to the classifier of those before it. -/
theorem ofCategories_concat (categories : List Category) (category : Category)
    (baseStyle : Style) :
    (ofCategories (categories ++ [category]) baseStyle : Classifier ρ) =
      (ofCategories categories baseStyle).add category := by
  rw [ofCategories, List.foldl_append]
  rfl

@[simp]
theorem baseStyle_add (classifier : Classifier ρ) (category : Category) :
    (classifier.add category).baseStyle = classifier.baseStyle := by
  simp only [add]
  split <;> rfl

/-- Behind the categories of a classifier some of those that follow are accepted, in order. -/
theorem exists_kept (classifier : Classifier ρ) (later : List Category) :
    ∃ kept, kept.Sublist later ∧
      (later.foldl add classifier).categories = classifier.categories ++ kept := by
  induction later generalizing classifier with
  | nil => exact ⟨[], List.Sublist.refl _, (List.append_nil _).symm⟩
  | cons category later ih =>
    obtain ⟨kept, hkept, hlater⟩ := ih (classifier.add category)
    rw [List.foldl_cons, hlater]
    cases hcompile : (Engine.compile (combinedSource (classifier.categories ++ [category])) :
      Except PatternError ρ) with
    | error cause =>
      rw [add_of_error hcompile]
      exact ⟨kept, hkept.cons category, rfl⟩
    | ok pattern =>
      rw [add_of_ok hcompile]
      exact ⟨category :: kept, hkept.cons_cons category, List.append_assoc _ _ _⟩

/-- The classifier looks for some of the categories it is given, in their order. -/
theorem sublist_categories (categories : List Category) (baseStyle : Style) :
    (ofCategories categories baseStyle : Classifier ρ).categories.Sublist categories := by
  obtain ⟨kept, hkept, hall⟩ := exists_kept (plain baseStyle : Classifier ρ) categories
  have hcategories : (ofCategories categories baseStyle : Classifier ρ).categories = kept := hall
  rwa [hcategories]

/--
What holds of the classifier that looks for nothing, and still holds with one more category that
the combined pattern stands with, holds of the classifier of a list of categories.
-/
theorem ofCategories_induction (categories : List Category) (baseStyle : Style)
    (motive : Classifier ρ → Prop) (hplain : motive (plain baseStyle))
    (hadd : ∀ (classifier : Classifier ρ) (category : Category) (joined : ρ),
      category ∈ (ofCategories categories baseStyle : Classifier ρ).categories →
      motive classifier →
      Engine.compile (combinedSource (classifier.categories ++ [category])) = .ok joined →
        motive ⟨classifier.categories ++ [category], some joined, classifier.baseStyle⟩) :
    motive (ofCategories categories baseStyle) := by
  have hfoldl : ∀ (later : List Category) (classifier : Classifier ρ),
      (∀ category ∈ (later.foldl add classifier).categories,
        category ∈ (ofCategories categories baseStyle : Classifier ρ).categories) →
      motive classifier → motive (later.foldl add classifier) := by
    intro later
    induction later with
    | nil => exact fun _ _ h => h
    | cons category later ih =>
      intro classifier hmem h
      rw [List.foldl_cons] at hmem ⊢
      refine ih _ hmem ?_
      cases hcompile : (Engine.compile (combinedSource (classifier.categories ++ [category])) :
        Except PatternError ρ) with
      | error cause =>
        rw [add_of_error hcompile]
        exact h
      | ok joined =>
        -- The category is never dropped again, so it is one of those that are left in the end.
        obtain ⟨kept, -, hkept⟩ := exists_kept (classifier.add category) later
        rw [add_of_ok hcompile] at hmem hkept ⊢
        exact hadd classifier category joined (hmem category (by rw [hkept]; simp)) h hcompile
  exact hfoldl categories (plain baseStyle) (fun _ hmem => hmem) hplain

/-- A classifier keeps the base style it is given. -/
theorem baseStyle_ofCategories (categories : List Category) (baseStyle : Style) :
    (ofCategories categories baseStyle : Classifier ρ).baseStyle = baseStyle :=
  ofCategories_induction categories baseStyle (·.baseStyle = baseStyle) rfl fun _ _ _ _ h _ => h

end Classifier

end ScratchEditor

import Mathlib.Data.List.Induction
import ScratchEditor.Token.Classifier

/-!
# Classifiers of accepted categories

Whether a category is accepted depends on the categories that were accepted before it and on
nothing else.  A category that is dropped gives its place to the next one, so a classifier that is
built again, from the accepted categories alone, gives each of them the same place, the same name
and the same group, and accepts them all.  The pattern of a category is read in the group that the
combined pattern has for it, so a category may be accepted whose pattern cannot be read alone.

Main definitions:

- `Category.isReadable`: whether the pattern of a category can be read alone.

Main results:

- `Classifier.ofCategories_categories`: the classifier of the accepted categories.
- `Classifier.ofCategories_accepted`: which categories are accepted, and what is built from them.
-/

namespace ScratchEditor

/-- Whether the pattern of a category can be read alone. -/
def Category.isReadable (category : Category) : Bool :=
  (Pattern.parse category.pattern).isOk

namespace Classifier

/-- A pattern that closes the group of its category and opens another one cannot be read alone, and
still its category is accepted.  It takes the letter that the first of the two groups finds. -/
theorem not_isReadable_of_mem_categories :
    let closing : Category := ⟨.keyword, "a)b(c".toList, .regular (.rgb 1 2 3)⟩
    let classifier := ofCategories [closing] (.regular (.rgb 0 0 0))
    closing.isReadable = false ∧ classifier.categories = [closing] ∧
      classifier.classify "abc".toList ⟨0, 3⟩ =
        [⟨⟨0, 3⟩, .regular (.rgb 0 0 0), none⟩, ⟨⟨0, 1⟩, closing.style, some .keyword⟩] := by
  decide +kernel

/-- A classifier can be built again from the categories that it accepted. -/
theorem ofCategories_categories (categories : List Category) (baseStyle : Style) :
    ofCategories (ofCategories categories baseStyle).categories baseStyle =
      ofCategories categories baseStyle := by
  induction categories using List.reverseRecOn with
  | nil => rfl
  | append_singleton earlier category ih =>
    rw [ofCategories_concat]
    cases hparse : Pattern.parse
        (combinedSource ((ofCategories earlier baseStyle).categories ++ [category])) with
    | error cause => rw [add_of_error hparse, ih]
    | ok pattern =>
      have hcategories : ((ofCategories earlier baseStyle).add category).categories =
          (ofCategories earlier baseStyle).categories ++ [category] := by
        rw [add_of_ok hparse]
      rw [hcategories, ofCategories_concat, ih]

/--
The classifier of a list of categories is that of the categories it accepted, with the same
combined pattern and the same groups in it, so both find the same spans in every text.  The
accepted categories stand in the order of the list.  A category of the list is accepted behind
those that were accepted before it if the combined pattern of all of them can be read, and dropped
if it cannot.
-/
theorem ofCategories_accepted (categories : List Category) (baseStyle : Style) :
    let classifier := ofCategories categories baseStyle
    let rebuilt := ofCategories classifier.categories baseStyle
    (rebuilt = classifier ∧
      ∀ text extent, rebuilt.classify text extent = classifier.classify text extent) ∧
    classifier.categories.Sublist categories ∧
    ∀ earlier category later, categories = earlier ++ category :: later →
      let before := (ofCategories earlier baseStyle).categories
      ∃ kept, kept.Sublist later ∧
        (((∃ pattern, Pattern.parse (combinedSource (before ++ [category])) = .ok pattern) ∧
            classifier.categories = before ++ category :: kept) ∨
          ((∃ cause, Pattern.parse (combinedSource (before ++ [category])) = .error cause) ∧
            classifier.categories = before ++ kept)) := by
  intro classifier rebuilt
  have hsame : rebuilt = classifier := ofCategories_categories categories baseStyle
  refine ⟨⟨hsame, fun _ _ => by rw [hsame]⟩, sublist_categories categories baseStyle, ?_⟩
  rintro earlier category later rfl before
  have hsplit : classifier = later.foldl add ((ofCategories earlier baseStyle).add category) :=
    List.foldl_append
  obtain ⟨kept, hkept, hlater⟩ := exists_kept ((ofCategories earlier baseStyle).add category) later
  rw [← hsplit] at hlater
  refine ⟨kept, hkept, ?_⟩
  cases hparse : Pattern.parse (combinedSource (before ++ [category])) with
  | error cause =>
    rw [add_of_error hparse] at hlater
    exact Or.inr ⟨⟨cause, rfl⟩, hlater⟩
  | ok pattern =>
    rw [add_of_ok hparse, List.append_assoc] at hlater
    exact Or.inl ⟨⟨pattern, rfl⟩, hlater⟩

/-- A category that names a group as one before it does is dropped.  The number behind it gets the
name that the dropped one was tried under. -/
theorem ofCategories_accepted_clash :
    let keyword : Category := ⟨.keyword, "(?P<word>let)".toList, .heavy (.rgb 0 0 255)⟩
    let clash : Category := ⟨.typeName, "(?P<word>[A-Z])".toList, .regular (.rgb 0 128 0)⟩
    let number : Category := ⟨.number, "\\d+".toList, .regular (.rgb 128 0 0)⟩
    let classifier := ofCategories [keyword, clash, number] (.regular (.rgb 0 0 0))
    [keyword, clash, number] = [keyword] ++ clash :: [number] ∧
      Pattern.parse (combinedSource [keyword, clash]) = .error .repeatedName ∧
      (∃ kept, kept.Sublist [number] ∧ classifier.categories = [keyword] ++ kept) ∧
      classifier.categories = [keyword, number] ∧
      ofCategories [keyword, number] (.regular (.rgb 0 0 0)) = classifier := by
  intro keyword clash number classifier
  have hfirst : (ofCategories [keyword] (.regular (.rgb 0 0 0))).categories = [keyword] := rfl
  have hclash : Pattern.parse (combinedSource [keyword, clash]) = .error .repeatedName := rfl
  have hcategories : classifier.categories = [keyword, number] := by decide +kernel
  obtain ⟨⟨hsame, -⟩, -, hplace⟩ :=
    ofCategories_accepted [keyword, clash, number] (.regular (.rgb 0 0 0))
  obtain ⟨kept, hkept, ⟨⟨pattern, hparse⟩, -⟩ | ⟨-, hdropped⟩⟩ :=
    hplace [keyword] clash [number] rfl
  · rw [hfirst] at hparse
    cases hclash.symm.trans hparse
  · rw [hfirst] at hdropped
    exact ⟨rfl, hclash, ⟨kept, hkept, hdropped⟩, hcategories, hcategories ▸ hsame⟩

end Classifier

end ScratchEditor

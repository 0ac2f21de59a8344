import ScratchEditor.Proofs.Pattern.Matches
import ScratchEditor.Token.Classifier

/-!
# Leftmost-first engines

The combined pattern is a choice of groups, and which of them matches is up to the engine.  An
engine is leftmost-first if a further alternative matches only where those before it do not, and
then as it matches alone.  From what one more alternative does follows what a match of the
combined pattern says of all categories: it goes to the first one that matches there.

Main definitions:

- `Engine.Accepted`: categories that were accepted one after the other.
- `Engine.Joins`: how a pattern matches that has one more alternative than another.
- `Engine.LeftmostFirst`: the laws of an engine that the classifier relies on.
- `Category.matchAt?`: the match of the pattern of a category at an offset.

Main results:

- `Engine.Accepted.matchAt?_eq_none` and `Engine.Accepted.first_of_matchAt?`: what the combined
  pattern matches.
- `Classifier.accepted_ofCategories`: the categories of a classifier were accepted in order.
-/

namespace ScratchEditor

namespace Engine

variable {ρ : Type} [Engine ρ]

/-! ## Laws -/

/-- What the capture group with a name matched, if there is such a group and it took part. -/
def captured? (pattern : ρ) (found : Found) (name : Text) : Option Extent :=
  (indexOf? pattern name).bind found.group?

/-- A pattern has a group for each of so many categories. -/
def HasGroups (pattern : ρ) (count : Nat) : Prop :=
  ∀ i < count, ∃ index, indexOf? pattern (groupName i) = some index ∧ index ≠ 0

/-- Categories that were accepted one after the other, each with a pattern that can be compiled
alone, and the pattern that combines them. -/
inductive Accepted : List Category → Option ρ → Prop
  | nil : Accepted [] none
  | concat {categories : List Category} {earlier : Option ρ} {category : Category} {own joined : ρ}
      (hbefore : Accepted categories earlier) (hown : compile category.pattern = .ok own)
      (hjoined : compile (combinedSource (categories ++ [category])) = .ok joined) :
      Accepted (categories ++ [category]) (some joined)

/-- A pattern that has the alternatives of an earlier one for so many categories, if there is an
earlier one, and behind them the group of one more category with a pattern of its own. -/
structure Joins (count : Nat) (earlier : Option ρ) (own joined : ρ) : Prop where
  groups : HasGroups joined (count + 1)
  /-- Where the earlier alternatives match, they match as before. -/
  first : ∀ pattern ∈ earlier, ∀ (text : Text) (offset : Nat), offset ≤ text.length →
    ∀ found ∈ matchAt? pattern (Place.at_ text offset),
      ∃ found' ∈ matchAt? joined (Place.at_ text offset), found'.extent = found.extent ∧
        ∀ i < count, captured? joined found' (groupName i) = captured? pattern found (groupName i)
  /-- Where they do not, the last one matches as it does alone, and it is captured as a whole. -/
  last : ∀ (text : Text) (offset : Nat), offset ≤ text.length →
    (∀ pattern ∈ earlier, matchAt? pattern (Place.at_ text offset) = none) →
      (matchAt? joined (Place.at_ text offset)).map Found.extent =
          (matchAt? own (Place.at_ text offset)).map Found.extent ∧
        ∀ found ∈ matchAt? joined (Place.at_ text offset),
          captured? joined found (groupName count) = some found.extent ∧
            ∀ i < count, captured? joined found (groupName i) = none

/--
The laws of a leftmost-first engine.  Looking for a match is sound, and one more alternative that
is accepted is the last choice, in which the pattern of the category means what it means alone.
-/
class LeftmostFirst (ρ : Type) [Engine ρ] : Prop extends Engine.Sound ρ where
  joins : ∀ {categories : List Category} {earlier : Option ρ} {category : Category}
    {own joined : ρ}, Accepted categories earlier → compile category.pattern = .ok own →
      compile (combinedSource (categories ++ [category])) = .ok joined →
        Joins categories.length earlier own joined

end Engine

/-- What the pattern of a category, compiled alone, matches at an offset of a text. -/
def Category.matchAt? (ρ : Type) [Engine ρ] (category : Category) (text : Text) (offset : Nat) :
    Option Extent :=
  match (Engine.compile category.pattern : Except PatternError ρ) with
  | .ok own => (Engine.matchAt? own (Place.at_ text offset)).map Found.extent
  | .error _ => none

namespace Engine

variable {ρ : Type} [Engine ρ]

/-! ## What the combined pattern matches -/

theorem matchAt?_category {category : Category} {own : ρ}
    (h : compile category.pattern = .ok own) (text : Text) (offset : Nat) :
    category.matchAt? ρ text offset =
      (matchAt? own (Place.at_ text offset)).map Found.extent := by
  unfold Category.matchAt?
  rw [h]

namespace Accepted

variable {categories : List Category} {pattern : ρ} {text : Text} {offset : Nat}

/-- Without a combined pattern no category was accepted. -/
theorem eq_nil_of_none (h : Accepted categories (none : Option ρ)) : categories = [] := by
  cases h
  rfl

variable [LeftmostFirst ρ]

/-- The combined pattern has a group for every category. -/
theorem hasGroups (h : Accepted categories (some pattern)) :
    HasGroups pattern categories.length := by
  cases h with
  | concat hbefore hown hjoined =>
    rw [List.length_append, List.length_singleton]
    exact (LeftmostFirst.joins hbefore hown hjoined).groups

/-- Where the combined pattern does not match, no category does. -/
theorem matchAt?_eq_none {combined : Option ρ} (h : Accepted categories combined)
    (hle : offset ≤ text.length)
    (hnone : ∀ pattern ∈ combined, Engine.matchAt? pattern (Place.at_ text offset) = none) :
    ∀ category ∈ categories, category.matchAt? ρ text offset = none := by
  induction h with
  | nil => exact List.forall_mem_nil _
  | @concat categories earlier category own joined hbefore hown hjoined ih =>
    have hjoins := LeftmostFirst.joins hbefore hown hjoined
    have hjoinedNone := hnone joined rfl
    have hearlier : ∀ pattern ∈ earlier,
        Engine.matchAt? pattern (Place.at_ text offset) = none := by
      intro pattern hpattern
      cases hmatch : Engine.matchAt? pattern (Place.at_ text offset) with
      | none => rfl
      | some found =>
        obtain ⟨found', hfound', -⟩ := hjoins.first pattern hpattern text offset hle found hmatch
        rw [hjoinedNone] at hfound'
        cases hfound'
    have hlast := (hjoins.last text offset hle hearlier).1
    rw [hjoinedNone, Option.map_none, ← matchAt?_category hown] at hlast
    intro other hmem
    rcases List.mem_append.mp hmem with hold | hnew
    · exact ih hearlier other hold
    · rw [List.mem_singleton.mp hnew]
      exact hlast.symm

/-- A match of the combined pattern is one of the first category that matches there.  The group of
this category captures all of it, and those of the categories before take no part. -/
theorem first_of_matchAt? {combined : Option ρ} (h : Accepted categories combined)
    (hle : offset ≤ text.length) {pattern : ρ} (hpattern : pattern ∈ combined) {found : Found}
    (hfound : Engine.matchAt? pattern (Place.at_ text offset) = some found) :
    ∃ before category after, categories = before ++ category :: after ∧
      (∀ other ∈ before, other.matchAt? ρ text offset = none) ∧
      category.matchAt? ρ text offset = some found.extent ∧
      captured? pattern found (groupName before.length) = some found.extent ∧
      ∀ i < before.length, captured? pattern found (groupName i) = none := by
  induction h generalizing pattern found with
  | nil => cases hpattern
  | @concat categories earlier category own joined hbefore hown hjoined ih =>
    obtain rfl := Option.some.inj hpattern
    have hjoins := LeftmostFirst.joins hbefore hown hjoined
    by_cases hearlier : ∀ pattern ∈ earlier,
        Engine.matchAt? pattern (Place.at_ text offset) = none
    · obtain ⟨hextent, hcaptured⟩ := hjoins.last text offset hle hearlier
      obtain ⟨hown', hothers⟩ := hcaptured found hfound
      refine ⟨categories, category, [], rfl, hbefore.matchAt?_eq_none hle hearlier, ?_, hown',
        hothers⟩
      rw [matchAt?_category hown, ← hextent, hfound, Option.map_some]
    · -- Some earlier alternative matches, and the match goes to the category that it went to.
      push Not at hearlier
      obtain ⟨pattern, hpattern, hsome⟩ := hearlier
      obtain ⟨first, hfirst⟩ := Option.ne_none_iff_exists'.mp hsome
      obtain ⟨found', hfound', hextent, hsame⟩ :=
        hjoins.first pattern hpattern text offset hle first hfirst
      obtain rfl := Option.some.inj (hfound.symm.trans hfound')
      obtain ⟨before, own, after, rfl, hnone, hmatch, hcaptured, hothers⟩ := ih hpattern hfirst
      have hlength : before.length < (before ++ own :: after).length := by
        rw [List.length_append, List.length_cons]
        omega
      refine ⟨before, own, after ++ [category], by simp, hnone, ?_, ?_, ?_⟩
      · rw [hmatch, hextent]
      · rw [hsame _ hlength, hcaptured, hextent]
      · intro i hi
        rw [hsame i (Nat.lt_trans hi hlength), hothers i hi]

end Accepted

end Engine

/-! ## The classifier of a list of categories -/

namespace Classifier

variable {ρ : Type} [Engine ρ]

/-- The categories of a classifier were accepted in order, if the patterns of those among them can
be compiled alone. -/
theorem accepted_ofCategories (categories : List Category) (baseStyle : Style)
    (halone : ∀ category ∈ (ofCategories categories baseStyle : Classifier ρ).categories,
      ∃ own : ρ, Engine.compile category.pattern = .ok own) :
    Engine.Accepted (ofCategories categories baseStyle : Classifier ρ).categories
      (ofCategories categories baseStyle : Classifier ρ).pattern := by
  refine ofCategories_induction categories baseStyle
    (fun classifier => Engine.Accepted classifier.categories classifier.pattern) .nil ?_
  intro classifier category joined hmem h hjoined
  obtain ⟨own, hown⟩ := halone category hmem
  exact .concat h hown hjoined

end Classifier

end ScratchEditor

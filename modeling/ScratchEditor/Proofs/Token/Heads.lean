import ScratchEditor.Proofs.Token.Engines
import ScratchEditor.Proofs.Token.Spans

/-!
# The token at an offset

A match of the combined pattern is a match of the first category whose own pattern
matches there, and the groups captured on it name this category as the winner.  So the
spans over a region are the tokens of a scan that asks every category by itself.

Main definitions:

- `Category.firstOf`: what the first category that matches at an offset matches there.
- `Category.headOf`: the token at an offset.

Main results:

- `Engine.Accepted.winner_eq`: the winner of a match.
- `Classifier.overlays_eq`: the spans over a region come from a scan.
-/

namespace ScratchEditor

variable {ρ : Type} [Engine ρ]

namespace Category

variable {categories : List Category} {text : Text} {offset : Nat}

/-- What the first category that matches at an offset matches there. -/
def firstOf (ρ : Type) [Engine ρ] (categories : List Category) (text : Text) (offset : Nat) :
    Option (Category × Extent) :=
  categories.findSome? fun category =>
    (category.matchAt? ρ text offset).map fun extent => (category, extent)

/-- The token at an offset: the first category that matches there takes it, if with some text. -/
def headOf (ρ : Type) [Engine ρ] (categories : List Category) (text : Text) (offset : Nat) :
    Option (Category × Extent) :=
  (firstOf ρ categories text offset).filter fun token => !token.2.isEmpty

theorem firstOf_eq_none_iff :
    firstOf ρ categories text offset = none ↔
      ∀ category ∈ categories, category.matchAt? ρ text offset = none := by
  unfold firstOf
  rw [List.findSome?_eq_none_iff]
  simp only [Option.map_eq_none_iff]

theorem firstOf_eq_some_iff {token : Category × Extent} :
    firstOf ρ categories text offset = some token ↔
      ∃ before after, categories = before ++ token.1 :: after ∧
        (∀ other ∈ before, other.matchAt? ρ text offset = none) ∧
        token.1.matchAt? ρ text offset = some token.2 := by
  unfold firstOf
  rw [List.findSome?_eq_some_iff]
  simp only [Option.map_eq_none_iff, Option.map_eq_some_iff]
  constructor
  · rintro ⟨before, category, after, hcategories, ⟨extent, hextent, rfl⟩, hbefore⟩
    exact ⟨before, after, hcategories, hbefore, hextent⟩
  · rintro ⟨before, after, hcategories, hbefore, hextent⟩
    exact ⟨before, token.1, after, hcategories, ⟨token.2, hextent, rfl⟩, hbefore⟩

end Category

/-! ## The winner of a match -/

namespace Classifier

variable {pattern : ρ} {found : Found}

/-- No category wins a match if the groups of all of them are empty or take no part. -/
theorem winnerFrom_eq_none {position : Nat} {categories : List Category}
    (h : ∀ i < categories.length, ∀ extent ∈ found.group? (groupIndex pattern (position + i)),
      extent.isEmpty = true) : winnerFrom pattern found position categories = none := by
  induction categories generalizing position with
  | nil => rfl
  | cons category rest ih =>
    have hfirst := h 0 (Nat.succ_pos _)
    have hrest := @ih (position + 1) fun i hi extent hextent => by
      rw [Nat.add_right_comm] at hextent
      exact h (i + 1) (Nat.succ_lt_succ hi) extent hextent
    rw [winnerFrom]
    cases hgroup : found.group? (groupIndex pattern position) with
    | none => exact hrest
    | some extent =>
      dsimp only
      rw [if_pos (hfirst extent hgroup), hrest]

/-- The first category wins whose group took part with some text. -/
theorem winnerFrom_eq_some {position : Nat} {before after : List Category} {category : Category}
    {extent : Extent}
    (hbefore : ∀ i < before.length, found.group? (groupIndex pattern (position + i)) = none)
    (hgroup : found.group? (groupIndex pattern (position + before.length)) = some extent)
    (hsome : extent.isEmpty = false) :
    winnerFrom pattern found position (before ++ category :: after) = some (category, extent) := by
  induction before generalizing position with
  | nil =>
    rw [List.length_nil, Nat.add_zero] at hgroup
    rw [List.nil_append, winnerFrom, hgroup]
    exact if_neg (by rw [hsome]; exact Bool.false_ne_true)
  | cons first rest ih =>
    have hfirst := hbefore 0 (Nat.succ_pos _)
    rw [Nat.add_zero] at hfirst
    rw [List.cons_append, winnerFrom, hfirst]
    refine ih (fun i hi => ?_) ?_
    · rw [Nat.add_right_comm]
      exact hbefore (i + 1) (Nat.succ_lt_succ hi)
    · rw [Nat.add_right_comm]
      exact hgroup

end Classifier

/-- An empty match captures no text. -/
theorem Engine.isEmpty_of_group? [Engine.Sound ρ] {pattern : ρ} {text : Text}
    {offset index : Nat} {found : Found} {extent : Extent} (hle : offset ≤ text.length)
    (hfound : Engine.matchAt? pattern (Place.at_ text offset) = some found)
    (hempty : found.extent.isEmpty = true) (hgroup : found.group? index = some extent) :
    extent.isEmpty = true := by
  obtain ⟨hstart, -, hforward, hgroups⟩ :=
    (Engine.Sound.sound pattern).forward (Place.at_at hle) hfound
  unfold Found.group? at hgroup
  split at hgroup
  · rw [← Option.some.inj hgroup]
    exact hempty
  · obtain ⟨group, hfind, rfl⟩ := Option.map_eq_some_iff.mp hgroup
    obtain ⟨hfrom, hto⟩ := hgroups group (List.mem_of_find?_eq_some hfind)
    have hend := (Found.isEmpty_extent (by rw [hstart]; exact hforward)).mp hempty
    unfold Extent.stop at hto
    unfold Extent.isEmpty
    rw [beq_iff_eq]
    omega

namespace Engine.Accepted

variable [LeftmostFirst ρ] {categories : List Category} {pattern : ρ} {text : Text} {offset : Nat}
  {found : Found}

/-- The index of a group is the one that its name has. -/
theorem group?_eq (h : Accepted categories (some pattern)) {i : Nat} (hi : i < categories.length) :
    found.group? (Classifier.groupIndex pattern i) =
      captured? pattern found (groupName i) := by
  obtain ⟨index, hindex, -⟩ := h.hasGroups i hi
  unfold Classifier.groupIndex captured?
  rw [hindex]
  rfl

/-- The winner of a match at an offset is the token there. -/
theorem winner_eq (h : Accepted categories (some pattern)) (hle : offset ≤ text.length)
    (hfound : Engine.matchAt? pattern (Place.at_ text offset) = some found) :
    Classifier.winnerFrom pattern found 0 categories = Category.headOf ρ categories text offset ∧
      if found.extent.isEmpty then Category.headOf ρ categories text offset = none
      else ∃ token, Category.headOf ρ categories text offset = some token ∧
        token.2 = found.extent := by
  obtain ⟨before, category, after, hcategories, hbefore, hmatch, hcaptured, hothers⟩ :=
    h.first_of_matchAt? hle rfl hfound
  have hlength : before.length < categories.length := by
    rw [hcategories, List.length_append, List.length_cons]
    omega
  have hfirst : Category.firstOf ρ categories text offset = some (category, found.extent) :=
    Category.firstOf_eq_some_iff.mpr ⟨before, after, hcategories, hbefore, hmatch⟩
  rw [Category.headOf, hfirst]
  by_cases hempty : found.extent.isEmpty = true
  · rw [if_pos hempty, Option.filter_some_neg (by simp [hempty])]
    refine ⟨Classifier.winnerFrom_eq_none fun i _ extent hextent => ?_, rfl⟩
    exact isEmpty_of_group? hle hfound hempty hextent
  · rw [if_neg hempty, Option.filter_some_pos (by simp [hempty])]
    refine ⟨?_, (category, found.extent), rfl, rfl⟩
    rw [hcategories]
    refine Classifier.winnerFrom_eq_some (fun i hi => ?_) ?_ (Bool.not_eq_true _ ▸ hempty)
    · rw [Nat.zero_add, h.group?_eq (Nat.lt_trans hi hlength), hothers i hi]
    · rw [Nat.zero_add, h.group?_eq hlength, hcaptured]

end Engine.Accepted

/-! ## The spans over a region -/

/-- The spans over a region come from the tokens of a scan that asks every category by itself. -/
theorem Classifier.overlays_eq [Engine.LeftmostFirst ρ] {classifier : Classifier ρ}
    (h : Engine.Accepted classifier.categories classifier.pattern) (region : Text) :
    ∃ tokens, Scan (Category.headOf ρ classifier.categories region) region.length 0 tokens ∧
      classifier.overlays region = tokens.map spanOf := by
  obtain ⟨categories, combined, baseStyle⟩ := classifier
  dsimp only at h ⊢
  cases combined with
  | none =>
    rw [h.eq_nil_of_none]
    exact ⟨[], Scan.empty (fun _ _ => rfl) _, rfl⟩
  | some pattern =>
    refine ⟨(Engine.findAll pattern region).filterMap fun found =>
      winnerFrom pattern found 0 categories, ?_, ?_⟩
    · have hscan := Found.scan_all (Engine.Sound.sound pattern) region
        (fun found => winnerFrom pattern found 0 categories) fun offset found hle hfound => by
          obtain ⟨hwinner, hheads⟩ := h.winner_eq hle hfound
          rw [hwinner]
          exact hheads
      refine hscan.congr fun k hk => ?_
      unfold Found.head
      cases hmatch : Engine.matchAt? pattern (Place.at_ region k) with
      | none =>
        have hnone := h.matchAt?_eq_none hk fun other hother => by
          rw [← Option.some.inj hother]
          exact hmatch
        rw [Category.headOf, Category.firstOf_eq_none_iff.mpr hnone]
        rfl
      | some found => exact (h.winner_eq hk hmatch).1
    · exact (List.map_filterMap).symm

end ScratchEditor

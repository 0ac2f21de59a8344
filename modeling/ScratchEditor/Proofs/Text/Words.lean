import Mathlib.Data.List.TakeWhile
import ScratchEditor.Proofs.Text.Runs
import ScratchEditor.Text.Blank

/-!
# Words between blanks

Values that a person types are read without the blanks around them.  A value that holds no blank
is found again whatever blanks stand around it.

Main definitions:

- `Text.IsWord`: some text without a blank.

Main results:

- `Text.exists_blanks`: what is dropped around a text is blank.
- `Text.IsWord.trim_between`: a word is what is left between blanks.
-/

namespace ScratchEditor

namespace Text

/-- A word is some text without a blank. -/
def IsWord (text : Text) : Prop :=
  text ≠ [] ∧ ∀ c ∈ text, isBlank c = false

-- Named, for the search also finds the instance that goes through all characters.
instance (text : Text) : Decidable text.IsWord :=
  @instDecidableAnd _ _ inferInstance (List.decidableBAll (isBlank · = false) text)

/-- Only blanks are dropped around a text. -/
theorem exists_blanks (text : Text) :
    ∃ left right, text = left ++ (text.trim ++ right) ∧ (∀ c ∈ left, isBlank c = true) ∧
      ∀ c ∈ right, isBlank c = true := by
  refine ⟨text.takeWhile isBlank, (text.trimLeft.reverse.takeWhile isBlank).reverse, ?_, ?_, ?_⟩
  · rw [trim, trimRight, ← List.reverse_append, List.takeWhile_append_dropWhile,
      List.reverse_reverse, trimLeft, List.takeWhile_append_dropWhile]
  · exact fun c hc => List.mem_takeWhile_imp hc
  · exact fun c hc => List.mem_takeWhile_imp (List.mem_reverse.mp hc)

variable {word left right : Text}

/-- Around a word all blanks are dropped, and nothing else. -/
theorem IsWord.trim_between (h : word.IsWord) (hleft : ∀ c ∈ left, isBlank c = true)
    (hright : ∀ c ∈ right, isBlank c = true) : trim (left ++ (word ++ right)) = word := by
  have hblanks : ∀ c ∈ right.reverse, isBlank c = true := fun c hc =>
    hright c (List.mem_reverse.mp hc)
  have hlast : ∀ c ∈ word.reverse.head?, isBlank c = false := fun c hc =>
    h.2 c (List.mem_reverse.mp (List.mem_of_head? hc))
  have hfirst : ∀ c ∈ (word ++ right).head?, isBlank c = false := by
    obtain ⟨first, others, rfl⟩ := List.exists_cons_of_ne_nil h.1
    rintro c ⟨⟩
    exact h.2 first List.mem_cons_self
  rw [trim, trimLeft, dropWhile_run hleft hfirst, trimRight, List.reverse_append,
    dropWhile_run hblanks hlast, List.reverse_reverse]

/-- There is nothing around a word to drop. -/
theorem IsWord.trim_eq (h : word.IsWord) : word.trim = word := by
  have hbetween := @trim_between word [] [] h (by simp) (by simp)
  rwa [List.nil_append, List.append_nil] at hbetween

end Text

end ScratchEditor

import Mathlib.Data.List.Nodup
import Mathlib.Data.List.TakeWhile
import Mathlib.Tactic.SplitIfs
import ScratchEditor.Proofs.Text.Words
import ScratchEditor.Settings.Tidy

/-!
# Keywords that are kept

Tidying looks at every keyword without the blanks around it, and keeps the first one of each
word.  It keeps that one as it was written, blanks included.  So the kept keywords are words
exactly if every word is first written without blanks around it, and exactly then every word
that was written is among them.

Main definitions:

- `firstWritten`: the first keyword that is a word apart from the blanks around it.

Main results:

- `mem_tidyKeywords_iff`: which keywords are kept.
- `Settings.keywords_tidy`: the keywords of tidied settings.
-/

namespace ScratchEditor

theorem isOneWord_iff {keyword : Text} : isOneWord keyword = true ↔ keyword.trim.IsWord := by
  simp [isOneWord, Text.IsWord]

/-! ## The first keyword of each word -/

/-- The first keyword that is a word apart from the blanks around it. -/
def firstWritten (keywords : List Text) (word : Text) : Option Text :=
  keywords.find? (·.trim == word)

/-- A keyword that was written has a first one of its word. -/
theorem exists_firstWritten {keywords : List Text} {keyword : Text} (h : keyword ∈ keywords) :
    ∃ first ∈ keywords, firstWritten keywords keyword.trim = some first ∧
      first.trim = keyword.trim := by
  have hsome : (firstWritten keywords keyword.trim).isSome = true :=
    List.find?_isSome.mpr ⟨keyword, h, beq_self_eq_true _⟩
  obtain ⟨first, hfirst⟩ := Option.isSome_iff_exists.mp hsome
  refine ⟨first, List.mem_of_find?_eq_some hfirst, hfirst, ?_⟩
  unfold firstWritten at hfirst
  have hsame := List.find?_some hfirst
  exact beq_iff_eq.mp hsame

theorem firstWritten_cons (first : Text) (rest : List Text) (word : Text) :
    firstWritten (first :: rest) word =
      if first.trim = word then some first else firstWritten rest word := by
  by_cases hsame : first.trim = word
  · rw [if_pos hsame]
    exact List.find?_cons_of_pos (beq_iff_eq.mpr hsame)
  · rw [if_neg hsame]
    exact List.find?_cons_of_neg (mt beq_iff_eq.mp hsame)

/-- Of each word that was not seen before the first keyword is kept. -/
theorem mem_tidyKeywordsFrom_iff {seen keywords : List Text} {keyword : Text} :
    keyword ∈ tidyKeywordsFrom seen keywords ↔
      keyword.trim.IsWord ∧ keyword.trim ∉ seen ∧
        firstWritten keywords keyword.trim = some keyword := by
  induction keywords generalizing seen with
  | nil => simp [tidyKeywordsFrom, firstWritten]
  | cons first rest ih =>
    have hkept : (isOneWord first && !seen.contains first.trim) = true ↔
        first.trim.IsWord ∧ first.trim ∉ seen := by
      rw [Bool.and_eq_true, isOneWord_iff]
      simp
    rw [tidyKeywordsFrom, firstWritten_cons]
    by_cases hfirst : first.trim.IsWord ∧ first.trim ∉ seen
    · rw [if_pos (hkept.mpr hfirst), List.mem_cons, ih, List.mem_cons]
      by_cases hsame : first.trim = keyword.trim
      · rw [if_pos hsame, ← hsame]
        simp [hfirst, eq_comm]
      · have hne : keyword ≠ first := by
          rintro rfl
          exact hsame rfl
        simp [hsame, hne, Ne.symm hsame]
    · rw [if_neg (mt hkept.mp hfirst), ih]
      by_cases hsame : first.trim = keyword.trim
      · -- Neither this keyword nor any other one of its word is kept.
        rw [hsame] at hfirst
        constructor
        · rintro ⟨hword, hnew, -⟩
          exact absurd ⟨hword, hnew⟩ hfirst
        · rintro ⟨hword, hnew, -⟩
          exact absurd ⟨hword, hnew⟩ hfirst
      · rw [if_neg hsame]

theorem mem_tidyKeywords_iff {keywords : List Text} {keyword : Text} :
    keyword ∈ tidyKeywords keywords ↔
      keyword.trim.IsWord ∧ firstWritten keywords keyword.trim = some keyword := by
  rw [tidyKeywords, mem_tidyKeywordsFrom_iff]
  simp

/-- What is kept stands in the order in which it was written. -/
theorem sublist_tidyKeywordsFrom (seen keywords : List Text) :
    (tidyKeywordsFrom seen keywords).Sublist keywords := by
  induction keywords generalizing seen with
  | nil => exact List.Sublist.refl []
  | cons first rest ih =>
    rw [tidyKeywordsFrom]
    split_ifs
    · exact (ih _).cons_cons first
    · exact (ih _).cons first

/-- Of each word only one keyword is kept. -/
theorem nodup_map_trim_tidyKeywordsFrom (seen keywords : List Text) :
    ((tidyKeywordsFrom seen keywords).map Text.trim).Nodup := by
  induction keywords generalizing seen with
  | nil => exact List.nodup_nil
  | cons first rest ih =>
    rw [tidyKeywordsFrom]
    split_ifs
    · rw [List.map_cons, List.nodup_cons]
      refine ⟨?_, ih _⟩
      intro hmem
      obtain ⟨keyword, hkept, hsame⟩ := List.mem_map.mp hmem
      exact (mem_tidyKeywordsFrom_iff.mp hkept).2.1 (hsame ▸ List.mem_cons_self)
    · exact ih _

/-! ## Words written without blanks around them -/

/-- Every word is first written without blanks around it. -/
def WrittenBare (keywords : List Text) : Prop :=
  ∀ keyword ∈ keywords, keyword.trim.IsWord →
    firstWritten keywords keyword.trim = some keyword.trim

instance (keywords : List Text) : Decidable (WrittenBare keywords) :=
  inferInstanceAs (Decidable (∀ keyword ∈ keywords, _ → _))

/-- The kept keywords are words exactly if every word is first written without blanks. -/
theorem isWord_tidyKeywords_iff {keywords : List Text} :
    (∀ keyword ∈ tidyKeywords keywords, keyword.IsWord) ↔ WrittenBare keywords := by
  constructor
  · intro hwords keyword hmem hword
    obtain ⟨first, -, hfirst, hsame⟩ := exists_firstWritten hmem
    have hkept : first ∈ tidyKeywords keywords := by
      rw [mem_tidyKeywords_iff, hsame]
      exact ⟨hword, hfirst⟩
    rw [hfirst, ← hsame, (hwords first hkept).trim_eq]
  · intro hbare keyword hkept
    obtain ⟨hword, hfirst⟩ := mem_tidyKeywords_iff.mp hkept
    have htrim := hbare keyword (List.mem_of_find?_eq_some hfirst) hword
    rw [hfirst] at htrim
    rw [Option.some.inj htrim]
    exact hword

/-- Every word is among the kept keywords exactly if it is first written without blanks. -/
theorem trim_mem_tidyKeywords_iff {keywords : List Text} :
    (∀ keyword ∈ keywords, keyword.trim.IsWord → keyword.trim ∈ tidyKeywords keywords) ↔
      WrittenBare keywords := by
  have hmem {word : Text} (hword : word.IsWord) :
      word ∈ tidyKeywords keywords ↔ firstWritten keywords word = some word := by
    rw [mem_tidyKeywords_iff, hword.trim_eq]
    exact and_iff_right hword
  constructor
  · intro hkept keyword hwritten hword
    exact (hmem hword).mp (hkept keyword hwritten hword)
  · intro hbare keyword hwritten hword
    exact (hmem hword).mpr (hbare keyword hwritten hword)

namespace Settings

/--
Tidying keeps the keywords that are words apart from the blanks around them, in order and of
each word the first, so no word occurs twice.  The keywords are words, and every word that was
written is among them, exactly if every word is first written without blanks around it.
-/
theorem keywords_tidy (settings : Settings) :
    let kept := settings.tidy.keywords
    kept.Sublist settings.keywords ∧ (kept.map Text.trim).Nodup ∧ kept.Nodup ∧
      (∀ keyword, keyword ∈ kept ↔
        keyword.trim.IsWord ∧ firstWritten settings.keywords keyword.trim = some keyword) ∧
      ((∀ keyword ∈ kept, keyword.IsWord) ↔ WrittenBare settings.keywords) ∧
      ((∀ keyword ∈ settings.keywords, keyword.trim.IsWord → keyword.trim ∈ kept) ↔
        WrittenBare settings.keywords) := by
  intro kept
  have hwords : (kept.map Text.trim).Nodup := nodup_map_trim_tidyKeywordsFrom [] settings.keywords
  exact ⟨sublist_tidyKeywordsFrom [] settings.keywords, hwords, hwords.of_map,
    fun _ => mem_tidyKeywords_iff, isWord_tidyKeywords_iff, trim_mem_tidyKeywords_iff⟩

/-- A keyword behind a blank is kept as it is, and the word that is written later is not. -/
theorem keywords_tidy_not_isWord :
    let settings : Settings := { standard with keywords := [" let".toList, "let".toList] }
    settings.tidy.keywords = [" let".toList] ∧ ¬ Text.IsWord " let".toList ∧
      Text.IsWord (Text.trim "let".toList) ∧
      Text.trim "let".toList ∉ settings.tidy.keywords := by
  decide

end Settings

end ScratchEditor

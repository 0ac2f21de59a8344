import ScratchEditor.Text.Basic

/-!
# Runs of characters

A run is the longest beginning of a text whose characters all belong to a class.

Main definitions:

- `Text.runLength`: the length of the run that a text begins with.

Main results:

- `Text.takeWhile_run` and `Text.dropWhile_run`: a run and what follows it.
-/

namespace ScratchEditor

namespace Text

/-- The number of characters of a class that a text begins with. -/
def runLength (has : Char → Bool) (text : Text) : Nat :=
  (text.takeWhile has).length

variable {has : Char → Bool} {c : Char} {text : Text}

@[simp]
theorem runLength_nil : runLength has [] = 0 :=
  rfl

theorem runLength_cons_of_pos (h : has c = true) :
    runLength has (c :: text) = runLength has text + 1 := by
  simp [runLength, h]

theorem runLength_cons_of_neg (h : has c = false) : runLength has (c :: text) = 0 := by
  simp [runLength, h]

/-- The characters of a run belong to its class. -/
theorem has_of_lt_runLength {n : Nat} (h : n < runLength has text) :
    ∃ d, text[n]? = some d ∧ has d = true := by
  induction text generalizing n with
  | nil => simp at h
  | cons c text ih =>
    by_cases hc : has c = true
    · rw [runLength_cons_of_pos hc] at h
      cases n with
      | zero => exact ⟨c, rfl, hc⟩
      | succ n => exact ih (Nat.lt_of_succ_lt_succ h)
    · rw [runLength_cons_of_neg (by simpa using hc)] at h
      exact absurd h (Nat.not_lt_zero n)

variable {run rest : Text}

/-- A run ends where a character of another class follows, or the text. -/
theorem takeWhile_run (hrun : ∀ c ∈ run, has c = true) (hrest : ∀ c ∈ rest.head?, has c = false) :
    (run ++ rest).takeWhile has = run := by
  rw [List.takeWhile_append_of_pos hrun]
  cases rest with
  | nil => simp
  | cons c rest => simp [hrest c rfl]

/-- Behind a run stands what follows it. -/
theorem dropWhile_run (hrun : ∀ c ∈ run, has c = true) (hrest : ∀ c ∈ rest.head?, has c = false) :
    (run ++ rest).dropWhile has = rest := by
  rw [List.dropWhile_append_of_pos hrun]
  cases rest with
  | nil => rfl
  | cons c rest => simp [hrest c rfl]

end Text

end ScratchEditor

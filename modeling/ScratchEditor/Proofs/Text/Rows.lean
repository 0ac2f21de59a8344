import ScratchEditor.Proofs.Text.Lines
import ScratchEditor.Proofs.Text.Runs
import ScratchEditor.Proofs.Text.Spots

/-!
# Rows in their place

A row stands between two line feeds, or between a line feed and an end of the text.  Rules that
look at the rows of a text one by one also look at what stands above each of them.

Main definitions:

- `PlacedRow` and `Text.placedRows`: the rows of a text, each with the text before it.
- `PlacedRow.StandsIn`: whether a row stands in a text, read off the text alone.

Main results:

- `Text.rowInduction`: what holds of single rows and goes on with a row in front holds of all texts.
- `PlacedRow.mem_placedRows_iff`: the rows of a text are those that stand in it.
-/

namespace ScratchEditor

namespace Text

variable {row rest : Text}

/-- A text without a line feed is its only row. -/
theorem rows_of_not_mem (h : '\n' ∉ row) : row.rows = [row] := by
  rw [rows, List.splitOn_eq_splitOnP]
  apply List.splitOnP_eq_singleton
  intro c hc
  simpa using ne_of_mem_of_not_mem hc h

/-- A row that ends comes before those of the text behind it. -/
theorem rows_append_newline (h : '\n' ∉ row) (rest : Text) :
    rows (row ++ '\n' :: rest) = row :: rest.rows := by
  rw [rows, rows, List.splitOn_eq_splitOnP, List.splitOn_eq_splitOnP]
  apply List.splitOnP_append_cons_of_forall_mem
  · intro c hc
    simpa using ne_of_mem_of_not_mem hc h
  · rfl

/-- What holds of single rows, and of a text with one more row in front, holds of all texts. -/
theorem rowInduction {motive : Text → Prop} (last : ∀ row, '\n' ∉ row → motive row)
    (more : ∀ row rest, '\n' ∉ row → motive rest → motive (row ++ '\n' :: rest)) (text : Text) :
    motive text := by
  -- A beginning of the first row is carried along until the row ends.
  suffices h : ∀ row, '\n' ∉ row → motive (row ++ text) from h [] (by simp)
  induction text with
  | nil =>
    intro row hrow
    simpa using last row hrow
  | cons c text ih =>
    intro row hrow
    by_cases hfeed : c = '\n'
    · subst hfeed
      exact more row text hrow (ih [] (by simp))
    · have hlonger := ih (row ++ [c]) (by simp [hrow, Ne.symm hfeed])
      simpa using hlonger

/-- A row reaches as far as the text goes without a line feed. -/
theorem eq_of_append_eq {inner after : Text} (hrow : '\n' ∉ row) (hinner : '\n' ∉ inner)
    (hafter : after = [] ∨ after.head? = some '\n') (h : row ++ '\n' :: rest = inner ++ after) :
    inner = row := by
  have htake {row tail : Text} (hrow : '\n' ∉ row) (htail : tail = [] ∨ tail.head? = some '\n') :
      (row ++ tail).takeWhile (· != '\n') = row := by
    apply takeWhile_run
    · intro c hc
      simpa using ne_of_mem_of_not_mem hc hrow
    · rcases htail with rfl | hfeed <;> simp_all
  rw [← htake hinner hafter, ← h, htake hrow (Or.inr rfl)]

end Text

/-! ## Rows with the text before them -/

/-- A row, with the text before it. -/
structure PlacedRow where
  before : Text
  row : Text
deriving DecidableEq

/-- Consecutive rows, the first of which stands behind a text. -/
def placedFrom (before : Text) : List Text → List PlacedRow
  | [] => []
  | row :: rest => ⟨before, row⟩ :: placedFrom (before ++ (row ++ ['\n'])) rest

/-- The rows of a text, each with the text before it. -/
def Text.placedRows (text : Text) : List PlacedRow :=
  placedFrom [] text.rows

namespace PlacedRow

/-- A row stands in a text if a line begins where it begins, and ends where it ends. -/
def StandsIn (place : PlacedRow) (text : Text) : Prop :=
  ∃ after, text = place.before ++ (place.row ++ after) ∧ place.before.EndsLine ∧
    '\n' ∉ place.row ∧ (after = [] ∨ after.head? = some '\n')

variable {place : PlacedRow} {text row : Text}

theorem standsIn_of_not_mem (h : '\n' ∉ row) : place.StandsIn row ↔ place = ⟨[], row⟩ := by
  obtain ⟨before, inner⟩ := place
  constructor
  · rintro ⟨after, rfl, hbefore, -, hafter⟩
    simp only [List.mem_append, not_or] at h
    obtain rfl := hbefore.eq_nil h.1
    obtain rfl : after = [] := by
      rcases hafter with hnil | hfeed
      · exact hnil
      · exact absurd (List.mem_of_head? hfeed) h.2.2
    simp
  · intro heq
    obtain ⟨rfl, rfl⟩ := PlacedRow.mk.inj heq
    exact ⟨[], by simp, Text.endsLine_nil, h, Or.inl rfl⟩

/-- In a text with a row in front stand that row and the rows of the rest. -/
theorem standsIn_append_newline (h : '\n' ∉ row) (rest : Text) :
    place.StandsIn (row ++ '\n' :: rest) ↔
      place = ⟨[], row⟩ ∨ ∃ inner : PlacedRow, inner.StandsIn rest ∧
        place = ⟨row ++ '\n' :: inner.before, inner.row⟩ := by
  have hends : Text.EndsLine (row ++ ['\n']) := by simp [Text.EndsLine]
  constructor
  · obtain ⟨before, inner⟩ := place
    rintro ⟨after, htext, hbefore, hinner, hafter⟩
    dsimp only at htext hbefore hinner
    rcases List.append_eq_append_iff.mp htext with ⟨between, rfl, hrest⟩ | ⟨tail, rfl, hrest⟩
    · cases between with
      | nil =>
        rw [List.append_nil] at hbefore ⊢
        obtain rfl := hbefore.eq_nil h
        obtain rfl := Text.eq_of_append_eq h hinner hafter hrest
        exact Or.inl rfl
      | cons c between =>
        obtain ⟨rfl, rfl⟩ := List.cons.inj hrest
        refine Or.inr ⟨⟨between, inner⟩, ⟨after, rfl, ?_, hinner, hafter⟩, rfl⟩
        exact Text.EndsLine.right (a := row ++ ['\n']) (by simpa using hbefore)
    · simp only [List.mem_append, not_or] at h
      obtain rfl := hbefore.eq_nil h.1
      obtain rfl := Text.eq_of_append_eq h.2 hinner hafter hrest.symm
      exact Or.inl rfl
  · rintro (rfl | ⟨inner, ⟨after, rfl, hbefore, hinner, hafter⟩, rfl⟩)
    · exact ⟨'\n' :: rest, by simp, Text.endsLine_nil, h, Or.inr rfl⟩
    · refine ⟨after, by simp, ?_, hinner, hafter⟩
      simpa using hends.append hbefore

/-- Behind another text, the rows of a text are those that stand in it. -/
theorem mem_placedFrom_iff (front text : Text) :
    place ∈ placedFrom front text.rows ↔
      ∃ inner : PlacedRow, inner.StandsIn text ∧ place = ⟨front ++ inner.before, inner.row⟩ := by
  induction text using Text.rowInduction generalizing front with
  | last row hrow => simp [Text.rows_of_not_mem hrow, placedFrom, standsIn_of_not_mem hrow]
  | more row rest hrow ih =>
    rw [Text.rows_append_newline hrow, placedFrom, List.mem_cons, ih]
    simp only [standsIn_append_newline hrow]
    constructor
    · rintro (rfl | ⟨inner, hinner, rfl⟩)
      · exact ⟨_, Or.inl rfl, by simp⟩
      · exact ⟨_, Or.inr ⟨inner, hinner, rfl⟩, by simp⟩
    · rintro ⟨inner, rfl | ⟨inner, hinner, rfl⟩, rfl⟩
      · exact Or.inl (by simp)
      · exact Or.inr ⟨inner, hinner, by simp⟩

/-- The rows of a text are those that stand in it. -/
theorem mem_placedRows_iff : place ∈ text.placedRows ↔ place.StandsIn text := by
  rw [Text.placedRows, mem_placedFrom_iff]
  simp

end PlacedRow

end ScratchEditor

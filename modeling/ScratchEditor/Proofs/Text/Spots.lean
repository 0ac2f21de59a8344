import Mathlib.Data.List.Basic
import ScratchEditor.Text.Spot

/-!
# Offsets and spots

The offsets of a text and the spots on its rows correspond to each other.  The way from an
offset to its spot counts the columns of every row; the way back looks for the spot on a walk
that counts columns on one row only and never starts them anew.  Both walks stand on the
target at the same time, and as spots only move forward, a spot is found where it belongs.

Main definitions:

- `Spot.Precedes`: the order of spots by row, then by column.
- `Text.rows` and `Text.HasSpot`: the rows of a text, and the spots on them.
- `Spot.Tracks`: what the walk towards a target knows of the spot it stands on.

Main results:

- `Text.hasSpot_iff`: the spots on the rows are those of the offsets.
- `Spot.distance_eq`: a walk finds the first offset whose spot is the target.
- `Text.offsetOf_inverts_spotAt`: offsets and spots correspond, in order.
-/

namespace ScratchEditor

namespace Spot

/-! ## The order of spots -/

/-- A spot stands before another one: on an earlier row, or on its row in an earlier column. -/
def Precedes (a b : Spot) : Prop :=
  a.row < b.row ∨ a.row = b.row ∧ a.column < b.column

variable {a b c here target walker : Spot}

theorem Precedes.trans (hab : a.Precedes b) (hbc : b.Precedes c) : a.Precedes c := by
  unfold Precedes at *
  omega

theorem Precedes.ne (h : a.Precedes b) : a ≠ b := by
  rintro rfl
  unfold Precedes at h
  omega

/-- Every character moves a spot forward. -/
theorem precedes_after (here : Spot) (c : Char) : here.Precedes (here.after c) := by
  unfold Precedes after
  split
  · exact Or.inl (Nat.lt_succ_self _)
  · exact Or.inr ⟨rfl, Nat.lt_succ_self _⟩

/-! ## Walks -/

/-- The spot behind a text that begins at a spot. -/
def walk (here : Spot) (text : Text) : Spot :=
  text.foldl after here

@[simp]
theorem walk_nil (here : Spot) : here.walk [] = here :=
  rfl

@[simp]
theorem walk_cons (here : Spot) (c : Char) (text : Text) :
    here.walk (c :: text) = (here.after c).walk text :=
  rfl

@[simp]
theorem walk_append (here : Spot) (first second : Text) :
    here.walk (first ++ second) = (here.walk first).walk second :=
  List.foldl_append

/-- A walk over some text leads forward. -/
theorem precedes_walk (here : Spot) {text : Text} (h : text ≠ []) :
    here.Precedes (here.walk text) := by
  induction text generalizing here with
  | nil => exact absurd rfl h
  | cons c text ih =>
    rw [walk_cons]
    by_cases hnil : text = []
    · simpa [hnil] using precedes_after here c
    · exact (precedes_after here c).trans (ih _ hnil)

/-- A walk leads one row down for each line feed. -/
theorem row_walk (here : Spot) (text : Text) :
    (here.walk text).row = here.row + text.countP (· == '\n') := by
  induction text generalizing here with
  | nil => simp
  | cons c text ih =>
    rw [walk_cons, ih]
    by_cases hfeed : c = '\n'
    · simp [after, hfeed]
      omega
    · simp [after, hfeed]

end Spot

/-! ## Rows -/

namespace Text

/-- The rows of a text, without their line feeds. -/
def rows (text : Text) : List Text :=
  text.splitOn '\n'

@[simp]
theorem rows_nil : rows [] = [[]] :=
  rfl

@[simp]
theorem rows_newline (text : Text) : rows ('\n' :: text) = [] :: text.rows := by
  simp [rows, List.splitOn_eq_splitOnP, List.splitOnP_cons_eq_if_modifyHead]

/-- Any other character goes on with the first row. -/
theorem rows_cons {c : Char} (hfeed : c ≠ '\n') {text row : Text} {more : List Text}
    (h : text.rows = row :: more) : rows (c :: text) = (c :: row) :: more := by
  simp only [rows, List.splitOn_eq_splitOnP] at h ⊢
  simp [List.splitOnP_cons_eq_if_modifyHead, hfeed, h]

/-- Every text has a first row. -/
theorem exists_rows (text : Text) : ∃ row more, text.rows = row :: more :=
  List.exists_cons_of_ne_nil (List.splitOn_ne_nil '\n' text)

/-- There is one row more than there are line feeds. -/
theorem length_rows (text : Text) : text.rows.length = 1 + text.count '\n' := by
  induction text with
  | nil => simp
  | cons c text ih =>
    by_cases hfeed : c = '\n'
    · rw [hfeed, rows_newline, List.length_cons, ih, List.count_cons_self]
      omega
    · obtain ⟨row, more, hrows⟩ := Text.exists_rows text
      rw [hrows, List.length_cons] at ih
      rw [rows_cons hfeed hrows, List.length_cons, ih, List.count_cons_of_ne hfeed]

/-- A text has a spot if it has the row, and the column is one on the row or just behind it. -/
def HasSpot (text : Text) (spot : Spot) : Prop :=
  ∃ row, 1 ≤ spot.row ∧ text.rows[spot.row - 1]? = some row ∧
    1 ≤ spot.column ∧ spot.column ≤ row.length + 1

end Text

namespace Spot

variable {here target walker : Spot}

/-! ## The spots on rows -/

/-- The spots on rows, the first of which goes on from a spot that is given. -/
def OnRows (target : Spot) : Spot → List Text → Prop
  | _, [] => False
  | here, row :: rest =>
    (target.row = here.row ∧ here.column ≤ target.column ∧
        target.column ≤ here.column + row.length) ∨
      target.OnRows ⟨here.row + 1, 1⟩ rest

/-- The walks over the beginnings of a text lead to the spots on its rows. -/
theorem exists_walk_iff (here target : Spot) (text : Text) :
    (∃ k ≤ text.length, here.walk (text.take k) = target) ↔ target.OnRows here text.rows := by
  induction text generalizing here with
  | nil =>
    obtain ⟨row, column⟩ := here
    obtain ⟨row', column'⟩ := target
    simp only [OnRows, List.length_nil, Nat.le_zero_eq, exists_eq_left, List.take_nil, walk_nil,
      Text.rows_nil, Nat.add_zero, or_false, Spot.mk.injEq]
    omega
  | cons c text ih =>
    have hfirst : (∃ k ≤ (c :: text).length, here.walk ((c :: text).take k) = target) ↔
        here = target ∨ ∃ k ≤ text.length, (here.after c).walk (text.take k) = target := by
      constructor
      · rintro ⟨_ | k, hk, hwalk⟩
        · exact Or.inl hwalk
        · exact Or.inr ⟨k, Nat.le_of_succ_le_succ hk, hwalk⟩
      · rintro (hhere | ⟨k, hk, hwalk⟩)
        · exact ⟨0, Nat.zero_le _, hhere⟩
        · exact ⟨k + 1, Nat.succ_le_succ hk, hwalk⟩
    rw [hfirst, ih]
    obtain ⟨row, column⟩ := here
    obtain ⟨row', column'⟩ := target
    by_cases hfeed : c = '\n'
    · rw [hfeed, Text.rows_newline]
      simp only [OnRows, after, if_true, List.length_nil, Nat.add_zero, Spot.mk.injEq]
      apply or_congr_left
      omega
    · obtain ⟨line, more, hrows⟩ := Text.exists_rows text
      rw [Text.rows_cons hfeed hrows, hrows]
      simp only [OnRows, after, hfeed, if_false, List.length_cons, Spot.mk.injEq]
      rw [← or_assoc]
      apply or_congr_left
      omega

/-- The spots on rows that begin in the first column, by the number of the row. -/
theorem onRows_iff (target : Spot) (first : Nat) (rows : List Text) :
    target.OnRows ⟨first, 1⟩ rows ↔
      ∃ row, first ≤ target.row ∧ rows[target.row - first]? = some row ∧
        1 ≤ target.column ∧ target.column ≤ row.length + 1 := by
  induction rows generalizing first with
  | nil => simp [OnRows]
  | cons row rows ih =>
    simp only [OnRows, ih]
    constructor
    · rintro (⟨hrow, hcolumn⟩ | ⟨line, hrow, hline, hcolumn⟩)
      · exact ⟨row, by omega, by simp [hrow], by omega⟩
      · refine ⟨line, by omega, ?_, hcolumn⟩
        have hnext : target.row - first = target.row - (first + 1) + 1 := by omega
        rw [hnext, List.getElem?_cons_succ, hline]
    · rintro ⟨line, hrow, hline, hcolumn⟩
      by_cases hfirst : target.row = first
      · have hsame : row = line := by simpa [hfirst] using hline
        rw [hsame]
        exact Or.inl ⟨hfirst, by omega⟩
      · refine Or.inr ⟨line, by omega, ?_, hcolumn⟩
        have hnext : target.row - first = target.row - (first + 1) + 1 := by omega
        rw [← hline, hnext, List.getElem?_cons_succ]

/-! ## Walks towards a target -/

/--
What a walk towards a target knows of the spot it stands on: the row, and on the row of the
target the column.  Until it gets there no column has been counted.
-/
structure Tracks (target here walker : Spot) : Prop where
  row_eq : walker.row = here.row
  column_eq : here.row = target.row → walker.column = here.column
  column_one : here.row < target.row → walker.column = 1

theorem Tracks.origin (target : Spot) : target.Tracks origin origin :=
  ⟨rfl, fun _ => rfl, fun _ => rfl⟩

/-- The walk keeps track of the spot after every character. -/
theorem Tracks.after (h : target.Tracks here walker) (c : Char) :
    target.Tracks (here.after c) (target.towards walker c) := by
  obtain ⟨hrow, hcolumn, hone⟩ := h
  by_cases hfeed : c = '\n'
  · -- The column was not counted before this row, so it is one there too.
    have hbelow (hle : here.row + 1 ≤ target.row) : walker.column = 1 := hone (by omega)
    simp only [Spot.after, towards, hfeed, if_true]
    exact ⟨by simp [hrow], fun hthere => hbelow (Nat.le_of_eq hthere),
      fun habove => hbelow (Nat.le_of_lt habove)⟩
  · by_cases hthere : here.row = target.row
    · have hwalker : walker.row = target.row := hrow.trans hthere
      simp only [Spot.after, towards, hfeed, hwalker, if_true, if_false]
      exact ⟨hthere.symm, fun _ => by simp [hcolumn hthere],
        fun habove => absurd hthere (Nat.ne_of_lt habove)⟩
    · have hwalker : walker.row ≠ target.row := fun hsame => hthere (hrow.symm.trans hsame)
      simp only [Spot.after, towards, hfeed, hwalker, if_false]
      exact ⟨hrow, fun hsame => absurd hsame hthere, hone⟩

/-- The walk stands on the target where the spot is the target. -/
theorem Tracks.eq_target_iff (h : target.Tracks here walker) : walker = target ↔ here = target := by
  obtain ⟨hrow, hcolumn, -⟩ := h
  constructor
  · rintro rfl
    have hsame : here.row = walker.row := hrow.symm
    cases here
    cases walker
    simp_all
  · rintro rfl
    have hsame := hcolumn rfl
    cases here
    cases walker
    simp_all

/-- A walk takes as many characters as stand before the first place that is the target. -/
theorem distance_eq (h : target.Tracks here walker) {text : Text} {k : Nat}
    (hk : k ≤ text.length) (hbefore : ∀ j < k, here.walk (text.take j) ≠ target)
    (hend : k = text.length ∨ here.walk (text.take k) = target) :
    target.distance walker text = k := by
  induction text generalizing here walker k with
  | nil =>
    have hzero : k = 0 := by simpa using hk
    rw [hzero]
    rfl
  | cons c text ih =>
    unfold distance
    cases k with
    | zero =>
      have hhere : here = target := by simpa using hend
      rw [if_pos (h.eq_target_iff.mpr hhere)]
    | succ k =>
      have hhere : here ≠ target := hbefore 0 (Nat.succ_pos k)
      rw [if_neg (mt h.eq_target_iff.mp hhere), Nat.add_right_cancel_iff]
      apply ih (h.after c)
      · simpa using hk
      · intro j hj
        exact hbefore (j + 1) (Nat.succ_lt_succ hj)
      · simpa using hend

end Spot

namespace Text

/-! ## Offsets and spots -/

/-- The spots of the offsets of a text are the spots on its rows. -/
theorem hasSpot_iff {text : Text} {spot : Spot} :
    text.HasSpot spot ↔ ∃ offset ≤ text.length, text.spotAt offset = spot := by
  unfold HasSpot
  rw [← Spot.onRows_iff spot 1]
  exact (Spot.exists_walk_iff Spot.origin spot text).symm

/-- A later offset has a later spot. -/
theorem precedes_spotAt {text : Text} {a b : Nat} (hab : a < b) (hb : b ≤ text.length) :
    (text.spotAt a).Precedes (text.spotAt b) := by
  have hsplit : text.take b = text.take a ++ (text.take b).drop a := by
    have htake : (text.take b).take a = text.take a := by
      rw [List.take_take, Nat.min_eq_left (Nat.le_of_lt hab)]
    rw [← htake, List.take_append_drop]
  have hmore : (text.take b).drop a ≠ [] := by
    apply List.ne_nil_of_length_pos
    rw [List.length_drop, List.length_take]
    omega
  have hwalk : text.spotAt b = (text.spotAt a).walk ((text.take b).drop a) := by
    change Spot.walk _ _ = Spot.walk (Spot.walk _ _) _
    rw [← Spot.walk_append, ← hsplit]
  rw [hwalk]
  exact Spot.precedes_walk _ hmore

/-- Looking for the spot of an offset leads back to the offset. -/
theorem offsetOf_spotAt {text : Text} {offset : Nat} (h : offset ≤ text.length) :
    text.offsetOf (text.spotAt offset) = offset := by
  apply Spot.distance_eq (Spot.Tracks.origin _) h
  · intro j hj
    exact (precedes_spotAt hj h).ne
  · exact Or.inr rfl

/-- Looking for a spot that is not there leads to the end. -/
theorem offsetOf_of_not_hasSpot {text : Text} {spot : Spot} (h : ¬ text.HasSpot spot) :
    text.offsetOf spot = text.length := by
  apply Spot.distance_eq (Spot.Tracks.origin _) (Nat.le_refl _)
  · intro j hj hspot
    exact h (hasSpot_iff.mpr ⟨j, Nat.le_of_lt hj, hspot⟩)
  · exact Or.inl rfl

/--
The offsets up to the end of a text correspond, in order, to the spots on its rows, each row
with a column for every character and one behind it.  Any other spot has the offset of the
end, any later offset the spot of the end, and the number of a line is the row of the spot.
-/
theorem offsetOf_inverts_spotAt (text : Text) :
    text.rows.length = 1 + text.count '\n' ∧
      (∀ a b, a < b → b ≤ text.length → (text.spotAt a).Precedes (text.spotAt b)) ∧
      (∀ spot, text.HasSpot spot ↔ ∃ offset ≤ text.length, text.spotAt offset = spot) ∧
      (∀ offset ≤ text.length, text.offsetOf (text.spotAt offset) = offset) ∧
      (∀ spot, text.HasSpot spot → text.spotAt (text.offsetOf spot) = spot) ∧
      (∀ spot, ¬ text.HasSpot spot → text.offsetOf spot = text.length) ∧
      (∀ offset, text.length ≤ offset → text.spotAt offset = text.spotAt text.length) ∧
      ∀ offset, text.lineNumberAt offset = (text.spotAt offset).row := by
  refine ⟨text.length_rows, fun _ _ => precedes_spotAt, fun _ => hasSpot_iff,
    fun _ => offsetOf_spotAt, ?_, fun _ => offsetOf_of_not_hasSpot, ?_, ?_⟩
  · intro spot hspot
    obtain ⟨offset, hle, rfl⟩ := hasSpot_iff.mp hspot
    rw [offsetOf_spotAt hle]
  · intro offset hle
    unfold spotAt
    rw [List.take_of_length_le hle, List.take_length]
  · intro offset
    exact (Spot.row_walk Spot.origin (text.take offset)).symm

/-- An empty row has one column; the next one there is not found before the end. -/
theorem offsetOf_inverts_spotAt_empty_row :
    HasSpot ['a', '\n', '\n', 'b'] ⟨2, 1⟩ ∧
      spotAt ['a', '\n', '\n', 'b'] (offsetOf ['a', '\n', '\n', 'b'] ⟨2, 1⟩) = ⟨2, 1⟩ ∧
      ¬ HasSpot ['a', '\n', '\n', 'b'] ⟨2, 2⟩ ∧ offsetOf ['a', '\n', '\n', 'b'] ⟨2, 2⟩ = 4 := by
  obtain ⟨-, -, -, -, hthere, hnowhere, -, -⟩ := offsetOf_inverts_spotAt ['a', '\n', '\n', 'b']
  have hrow : rows ['a', '\n', '\n', 'b'] = [['a'], [], ['b']] := by decide
  have hspot : HasSpot ['a', '\n', '\n', 'b'] ⟨2, 1⟩ := by simp [HasSpot, hrow]
  have hnone : ¬ HasSpot ['a', '\n', '\n', 'b'] ⟨2, 2⟩ := by simp [HasSpot, hrow]
  exact ⟨hspot, hthere _ hspot, hnone, hnowhere _ hnone⟩

end Text

end ScratchEditor

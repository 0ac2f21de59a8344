import Mathlib.Algebra.BigOperators.Group.Finset.Basic
import Mathlib.Algebra.Order.BigOperators.Group.Multiset
import Mathlib.Data.List.TakeWhile
import Mathlib.Order.Interval.Finset.Nat
import ScratchEditor.Indent.Detect
import ScratchEditor.Proofs.Text.Rows
import ScratchEditor.Proofs.Text.Runs

/-!
# Votes on the unit of a text

Detection carries one scan from row to row, and keeps a list of the votes.  Where a row begins the
scan has seen just the text before the row, and no comment runs on, so each row votes as if it were
looked at by itself.  What is found follows from the numbers of votes alone.

Main definitions:

- `PlacedRow.depth`: the depth a row is indented for.
- `PlacedRow.VotesFor` and `Text.votesFor`: the votes for a unit.

Main results:

- `lineVote_eq_some_iff`: what a row votes for.
- `favouriteWidth_eq_some_iff`: the narrowest of the widths with the most votes.
- `detectIndent_tally`: what is detected, by the numbers of votes.
-/

namespace ScratchEditor

/-- The units that may be detected. -/
def IndentUnit.Detectable : IndentUnit → Prop
  | .tab => True
  | .spaces width => 1 ≤ width ∧ width ≤ widest

namespace PlacedRow

/-- The depth a row is indented for: that of the text before it, or one less if the first
character behind its indentation is a closing brace. -/
def depth (place : PlacedRow) : Nat :=
  if place.row.find? (!isIndentChar ·) = some '}' then indentDepth place.before - 1
  else indentDepth place.before

/-- A row votes if it is inside braces and not blank. -/
def IsInside (place : PlacedRow) : Prop :=
  0 < place.depth ∧ place.row.isBlankOnly = false

instance (place : PlacedRow) : Decidable place.IsInside :=
  inferInstanceAs (Decidable (_ ∧ _))

/--
What a row votes for: for tabs if it begins with one, and for a width if it begins with exactly
so many spaces for each level of its depth.
-/
def VotesFor (place : PlacedRow) : IndentUnit → Prop
  | .tab => place.IsInside ∧ place.row.head? = some '\t'
  | .spaces width =>
    place.IsInside ∧ (1 ≤ width ∧ width ≤ IndentUnit.widest) ∧
      place.row.runLength (· == ' ') = width * place.depth

instance (place : PlacedRow) : DecidablePred place.VotesFor
  | .tab => inferInstanceAs (Decidable (_ ∧ _))
  | .spaces _ => inferInstanceAs (Decidable (_ ∧ _))

theorem VotesFor.isInside {place : PlacedRow} {unit : IndentUnit} (h : place.VotesFor unit) :
    place.IsInside := by
  cases unit with
  | tab => exact h.1
  | spaces width => exact h.1

theorem VotesFor.detectable {place : PlacedRow} {unit : IndentUnit} (h : place.VotesFor unit) :
    unit.Detectable := by
  cases unit with
  | tab => trivial
  | spaces width => exact h.2.1

/-- A row that votes begins with the character that its unit is made of. -/
theorem VotesFor.head?_eq {place : PlacedRow} {unit : IndentUnit} (h : place.VotesFor unit) :
    place.row.head? = some unit.blank := by
  cases unit with
  | tab => exact h.2
  | spaces width =>
    obtain ⟨⟨hdepth, -⟩, ⟨hwidth, -⟩, hrun⟩ := h
    have hpos : 0 < place.row.runLength (· == ' ') := hrun ▸ Nat.mul_pos hwidth hdepth
    obtain ⟨c, hfirst, hc⟩ := Text.has_of_lt_runLength hpos
    obtain rfl : c = ' ' := by simpa using hc
    rw [List.head?_eq_getElem?, hfirst]
    rfl

end PlacedRow

/-- How many rows of a text vote for a unit. -/
def Text.votesFor (text : Text) (unit : IndentUnit) : Nat :=
  text.placedRows.countP fun place => decide (place.VotesFor unit)

/-! ## The vote of a row -/

variable {text : Text} {place : PlacedRow} {unit : IndentUnit} {votes : List IndentUnit}

theorem lineDepth_eq (place : PlacedRow) :
    lineDepth (indentDepth place.before) (place.row.dropWhile isIndentChar) = place.depth := by
  rw [lineDepth, PlacedRow.depth, List.find?_not_eq_head?_dropWhile]

/-- A row is blank if what follows its indentation is. -/
theorem isBlankOnly_dropWhile (row : Text) :
    Text.isBlankOnly (row.dropWhile isIndentChar) = row.isBlankOnly := by
  have hindent : (row.takeWhile isIndentChar).all isBlank = true := by
    rw [List.all_eq_true]
    intro c hc
    have hblank := List.mem_takeWhile_imp hc
    simp only [isIndentChar, Bool.or_eq_true, beq_iff_eq] at hblank
    rcases hblank with rfl | rfl <;> decide
  unfold Text.isBlankOnly
  conv_rhs => rw [← List.takeWhile_append_dropWhile (p := isIndentChar) (l := row)]
  rw [List.all_append, hindent, Bool.true_and]

/-- Spaces vote for the width that the depth divides them into. -/
theorem widthVote_eq_some_iff {spaces depth : Nat} (hdepth : 0 < depth) :
    (if spaces % depth = 0 && 1 ≤ spaces / depth && spaces / depth ≤ IndentUnit.widest then
      some (IndentUnit.spaces (spaces / depth)) else none) = some unit ↔
    ∃ width, unit = .spaces width ∧ (1 ≤ width ∧ width ≤ IndentUnit.widest) ∧
      spaces = width * depth := by
  constructor
  · intro h
    split_ifs at h with hcond
    simp only [Bool.and_eq_true, decide_eq_true_eq] at hcond
    obtain rfl := Option.some.inj h
    exact ⟨_, rfl, ⟨hcond.1.2, hcond.2⟩,
      (Nat.div_mul_cancel (Nat.dvd_of_mod_eq_zero hcond.1.1)).symm⟩
  · rintro ⟨width, rfl, ⟨hpos, hwidest⟩, rfl⟩
    rw [Nat.mul_div_cancel width hdepth, Nat.mul_mod_left]
    simp [hpos, hwidest]

/-- What a row votes for, given the braces that are open before it. -/
theorem lineVote_eq_some_iff :
    lineVote (indentDepth place.before) place.row = some unit ↔ place.VotesFor unit := by
  unfold lineVote
  dsimp only
  rw [lineDepth_eq, isBlankOnly_dropWhile]
  by_cases hinside : place.IsInside
  · have hdepth := hinside.1
    have hblank := hinside.2
    rw [if_neg (by simp [hblank, Nat.ne_of_gt hdepth])]
    -- the first character decides which kind of unit the row can vote for
    split
    · rename_i rest hrow
      cases unit with
      | tab => simp [PlacedRow.VotesFor, hinside, hrow]
      | spaces width =>
        simp only [Option.some.injEq, reduceCtorEq, false_iff]
        intro hvotes
        simpa [hrow, IndentUnit.blank] using hvotes.head?_eq
    · rename_i rest hrow
      rw [widthVote_eq_some_iff hdepth]
      cases unit <;> simp [PlacedRow.VotesFor, hinside, hrow, Text.runLength]
    · rename_i htab hspace
      simp only [reduceCtorEq, false_iff]
      intro hvotes
      obtain ⟨rest, hrow⟩ := List.head?_eq_some_iff.mp hvotes.head?_eq
      cases unit with
      | tab => exact htab rest hrow
      | spaces width => exact hspace rest hrow
  · rw [if_pos]
    · simp only [reduceCtorEq, false_iff]
      exact fun hvotes => hinside hvotes.isInside
    · simp only [PlacedRow.IsInside, not_and, Bool.not_eq_false] at hinside
      rcases Nat.eq_zero_or_pos place.depth with hzero | hpos
      · simp [hzero]
      · simp [hinside hpos]

/-! ## The votes of a text -/

theorem splitAtNewlines_eq (text : Text) : splitAtNewlines text = text.rows := by
  induction text with
  | nil => rfl
  | cons c text ih =>
    obtain ⟨row, more, hrows⟩ := Text.exists_rows text
    by_cases hfeed : c = '\n'
    · rw [splitAtNewlines, if_pos hfeed, ih, hfeed, Text.rows_newline]
    · rw [splitAtNewlines, if_neg hfeed, ih, Text.rows_cons hfeed hrows, hrows]

/-- Where a row begins, the scan of the rows above is that of the text before it. -/
theorem votesFrom_eq (before : Text) (rows : List Text) :
    votesFrom (BraceScan.start.feedAll before) rows =
      (placedFrom before rows).filterMap fun place =>
        lineVote (indentDepth place.before) place.row := by
  induction rows generalizing before with
  | nil => rfl
  | cons row rows ih =>
    have hnext : ((BraceScan.start.feedAll before).feedAll row).feed '\n' =
        BraceScan.start.feedAll (before ++ (row ++ ['\n'])) := by
      rw [BraceScan.feedAll_append, BraceScan.feedAll_append]
      rfl
    have hdepth : (BraceScan.start.feedAll before).depth = indentDepth before := rfl
    rw [votesFrom, hnext, ih, hdepth, placedFrom, List.filterMap_cons]
    cases lineVote (indentDepth before) row <;> rfl

theorem indentVotes_eq (text : Text) :
    indentVotes text =
      text.placedRows.filterMap fun place => lineVote (indentDepth place.before) place.row := by
  rw [indentVotes, splitAtNewlines_eq, Text.placedRows, ← votesFrom_eq, BraceScan.feedAll_nil]

/-- A unit has as many votes as rows vote for it. -/
theorem count_indentVotes (text : Text) (unit : IndentUnit) :
    (indentVotes text).count unit = text.votesFor unit := by
  rw [indentVotes_eq, List.count, List.countP_filterMap, Text.votesFor]
  apply List.countP_congr
  intro place _
  rw [decide_eq_true_iff, ← lineVote_eq_some_iff]
  cases lineVote (indentDepth place.before) place.row <;> simp

theorem detectable_of_mem (h : unit ∈ indentVotes text) : unit.Detectable := by
  rw [indentVotes_eq] at h
  obtain ⟨place, -, hvote⟩ := List.mem_filterMap.mp h
  exact (lineVote_eq_some_iff.mp hvote).detectable

/-- No row votes for another unit than those that may be detected. -/
theorem votesFor_eq_zero (h : ¬ unit.Detectable) : text.votesFor unit = 0 := by
  rw [← count_indentVotes, List.count_eq_zero]
  exact fun hmem => h (detectable_of_mem hmem)

/-- All votes are for tabs or for one of the widths. -/
theorem length_indentVotes (text : Text) :
    (indentVotes text).length =
      text.votesFor .tab +
        ∑ width ∈ Finset.Icc 1 IndentUnit.widest, text.votesFor (.spaces width) := by
  have hall : ∀ unit ∈ (indentVotes text : Multiset IndentUnit),
      unit ∈ insert IndentUnit.tab ((Finset.Icc 1 IndentUnit.widest).image .spaces) := by
    intro unit hmem
    have hunit := detectable_of_mem hmem
    cases unit with
    | tab => simp
    | spaces width => simpa [IndentUnit.Detectable] using hunit
  have hsum := Multiset.sum_count_eq_card hall
  rw [Finset.sum_insert (by simp), Finset.sum_image (by simp)] at hsum
  simpa [count_indentVotes] using hsum.symm

/-! ## The favourite width -/

/-- What is known of the favourite among the widths up to a limit. -/
def Favours (votes : List IndentUnit) (limit : Nat) : Option Nat → Prop
  | none => ∀ width, 1 ≤ width → width ≤ limit → votes.count (.spaces width) = 0
  | some best =>
    best ≤ limit ∧ 0 < votes.count (.spaces best) ∧
      ∀ width, 1 ≤ width → width ≤ limit →
        votes.count (.spaces width) ≤ votes.count (.spaces best) ∧
          (width < best → votes.count (.spaces width) < votes.count (.spaces best))

/-- The next width becomes the favourite if it has more votes than the one found before. -/
theorem Favours.next {limit : Nat} {best : Option Nat} (h : Favours votes limit best) :
    Favours votes (limit + 1) (betterWidth votes best (limit + 1)) := by
  cases best with
  | none =>
    unfold betterWidth
    dsimp only
    split_ifs with hvotes
    · refine ⟨Nat.le_refl _, hvotes, ?_⟩
      intro width hpos hle
      rcases Nat.of_le_succ hle with hold | rfl
      · rw [h width hpos hold]
        exact ⟨Nat.zero_le _, fun _ => hvotes⟩
      · exact ⟨Nat.le_refl _, fun hlt => absurd hlt (Nat.lt_irrefl _)⟩
    · intro width hpos hle
      rcases Nat.of_le_succ hle with hold | rfl
      · exact h width hpos hold
      · exact Nat.eq_zero_of_not_pos hvotes
  | some best =>
    obtain ⟨hbest, hvotes, hothers⟩ := h
    unfold betterWidth
    dsimp only
    split_ifs with hmore
    · refine ⟨Nat.le_refl _, Nat.lt_trans hvotes hmore, ?_⟩
      intro width hpos hle
      rcases Nat.of_le_succ hle with hold | rfl
      · have hlt := Nat.lt_of_le_of_lt (hothers width hpos hold).1 hmore
        exact ⟨Nat.le_of_lt hlt, fun _ => hlt⟩
      · exact ⟨Nat.le_refl _, fun hlt => absurd hlt (Nat.lt_irrefl _)⟩
    · refine ⟨Nat.le_succ_of_le hbest, hvotes, ?_⟩
      intro width hpos hle
      rcases Nat.of_le_succ hle with hold | rfl
      · exact hothers width hpos hold
      · exact ⟨Nat.le_of_not_lt hmore, by omega⟩

theorem favours_favouriteWidth (votes : List IndentUnit) :
    Favours votes IndentUnit.widest (favouriteWidth votes) := by
  have hwidths (limit : Nat) : (List.range (limit + 1)).drop 1 = List.range' 1 limit := by
    rw [List.range_eq_range', List.range'_succ]
    rfl
  rw [favouriteWidth, hwidths]
  induction IndentUnit.widest with
  | zero =>
    intro width hpos hle
    omega
  | succ limit ih =>
    rw [List.range'_1_concat, List.foldl_append, Nat.add_comm 1 limit]
    exact ih.next

/-- No width is the favourite if none of them has a vote. -/
theorem favouriteWidth_eq_none_iff (text : Text) :
    favouriteWidth (indentVotes text) = none ↔ ∀ width, text.votesFor (.spaces width) = 0 := by
  have hfavours := favours_favouriteWidth (indentVotes text)
  constructor
  · intro hnone width
    rw [hnone] at hfavours
    by_cases hwidth : (IndentUnit.spaces width).Detectable
    · rw [← count_indentVotes]
      exact hfavours width hwidth.1 hwidth.2
    · exact votesFor_eq_zero hwidth
  · intro hvotes
    cases hbest : favouriteWidth (indentVotes text) with
    | none => rfl
    | some best =>
      rw [hbest] at hfavours
      have hpos := hfavours.2.1
      rw [count_indentVotes, hvotes best] at hpos
      exact absurd hpos (Nat.lt_irrefl 0)

/-- The favourite is the narrowest of the widths with the most votes. -/
theorem favouriteWidth_eq_some_iff (text : Text) (width : Nat) :
    favouriteWidth (indentVotes text) = some width ↔
      0 < text.votesFor (.spaces width) ∧
      (∀ other, text.votesFor (.spaces other) ≤ text.votesFor (.spaces width)) ∧
      ∀ other < width, text.votesFor (.spaces other) < text.votesFor (.spaces width) := by
  have hfavours := favours_favouriteWidth (indentVotes text)
  have hsome {best : Nat} (hbest : favouriteWidth (indentVotes text) = some best) :
      0 < text.votesFor (.spaces best) ∧
      (∀ other, text.votesFor (.spaces other) ≤ text.votesFor (.spaces best)) ∧
      ∀ other < best, text.votesFor (.spaces other) < text.votesFor (.spaces best) := by
    rw [hbest] at hfavours
    obtain ⟨-, hpos, hothers⟩ := hfavours
    simp only [count_indentVotes] at hpos hothers
    have hall (other : Nat) :
        text.votesFor (.spaces other) ≤ text.votesFor (.spaces best) ∧
          (other < best → text.votesFor (.spaces other) < text.votesFor (.spaces best)) := by
      by_cases hother : (IndentUnit.spaces other).Detectable
      · exact hothers other hother.1 hother.2
      · rw [votesFor_eq_zero hother]
        exact ⟨Nat.zero_le _, fun _ => hpos⟩
    exact ⟨hpos, fun other => (hall other).1, fun other => (hall other).2⟩
  refine ⟨hsome, ?_⟩
  rintro ⟨hpos, hmost, hnarrowest⟩
  cases hbest : favouriteWidth (indentVotes text) with
  | none =>
    rw [(favouriteWidth_eq_none_iff text).mp hbest width] at hpos
    exact absurd hpos (Nat.lt_irrefl 0)
  | some best =>
    obtain ⟨-, hmost', hnarrowest'⟩ := hsome hbest
    rcases Nat.lt_trichotomy best width with hlt | rfl | hlt
    · exact absurd (hmost' width) (Nat.not_le.mpr (hnarrowest best hlt))
    · rfl
    · exact absurd (hmost best) (Nat.not_le.mpr (hnarrowest' width hlt))

/-! ## What is detected -/

/-- The rows that vote for tabs are at least as many as those that vote for a width. -/
def Text.PrefersTabs (text : Text) : Prop :=
  0 < text.votesFor .tab ∧
    ∑ width ∈ Finset.Icc 1 IndentUnit.widest, text.votesFor (.spaces width) ≤ text.votesFor .tab

theorem detectIndent_eq (text : Text) :
    text.PrefersTabs ∧ detectIndent text = some .tab ∨
      ¬ text.PrefersTabs ∧
        detectIndent text = (favouriteWidth (indentVotes text)).map .spaces := by
  unfold detectIndent Text.PrefersTabs
  dsimp only
  rw [count_indentVotes, length_indentVotes, Nat.add_sub_cancel_left]
  split_ifs with htabs
  · exact Or.inl ⟨by simpa using htabs, rfl⟩
  · exact Or.inr ⟨by simpa using htabs, rfl⟩

theorem votesFor_eq_zero_iff (text : Text) :
    (∀ unit, text.votesFor unit = 0) ↔
      ¬ text.PrefersTabs ∧ ∀ width, text.votesFor (.spaces width) = 0 := by
  constructor
  · intro hnone
    exact ⟨fun htabs => Nat.ne_of_gt htabs.1 (hnone .tab), fun width => hnone (.spaces width)⟩
  · rintro ⟨htabs, hwidths⟩ unit
    cases unit with
    | spaces width => exact hwidths width
    | tab =>
      by_contra hpos
      exact htabs ⟨Nat.pos_of_ne_zero hpos, by simp [hwidths]⟩

/--
Detection goes by the votes of the rows.  Nothing is found if no row votes; tabs, if rows vote for
them and no more rows for all widths together; and otherwise the narrowest of the widths with the
most votes.
-/
theorem detectIndent_tally (text : Text) :
    (detectIndent text = none ↔ ∀ unit, text.votesFor unit = 0) ∧
    (detectIndent text = some .tab ↔ text.PrefersTabs) ∧
    ∀ width, detectIndent text = some (.spaces width) ↔
      ¬ text.PrefersTabs ∧ 0 < text.votesFor (.spaces width) ∧
      (∀ other, text.votesFor (.spaces other) ≤ text.votesFor (.spaces width)) ∧
      ∀ other < width, text.votesFor (.spaces other) < text.votesFor (.spaces width) := by
  rw [votesFor_eq_zero_iff, ← favouriteWidth_eq_none_iff]
  simp only [← favouriteWidth_eq_some_iff]
  rcases detectIndent_eq text with ⟨htabs, hdetect⟩ | ⟨htabs, hdetect⟩
  · simp [htabs, hdetect]
  · rw [hdetect]
    cases favouriteWidth (indentVotes text) <;> simp [htabs]

/-- Tabs win against as many votes for a width, and of two widths the narrower one wins. -/
example : detectIndent "\x7b\n\ta\n  b".toList = some .tab ∧
    detectIndent "\x7b\n    a\n  b".toList = some (.spaces 2) := by decide

end ScratchEditor

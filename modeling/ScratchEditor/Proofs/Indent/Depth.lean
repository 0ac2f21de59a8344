import Mathlib.Data.List.Infix
import Mathlib.Order.Bounds.Basic
import ScratchEditor.Indent.Depth
import ScratchEditor.Proofs.Text.Rows

/-!
# Depth as a surplus of braces

A scan goes through a text character by character, and its count of open braces never falls below
zero.  The same depth is seen from the braces alone.  Each row is cut where its comment begins,
and of what is left only the braces are kept.  A closing brace with nothing open puts an end to
all that came before it, so the depth is what the braces from some place on open more than they
close, and no place gives more.

Main definitions:

- `Text.codeBraces`: the braces of a text outside of comments.
- `surplus`: how many more braces are opened than closed.

Main results:

- `BraceScan.depth_feedAll`: a scan counts the braces outside of comments.
- `isGreatest_indentDepth`: the depth is the greatest surplus of an end of the braces.
-/

namespace ScratchEditor

namespace Text

/-- What stands in a row before its comment, which begins with the first two slashes side by
side. -/
def beforeComment : Text → Text
  | [] => []
  | c :: rest => if c = '/' ∧ rest.head? = some '/' then [] else c :: beforeComment rest

/-- An opening or a closing brace. -/
def isBrace (c : Char) : Bool :=
  c == '{' || c == '}'

/-- The braces of a text outside of comments. -/
def codeBraces (text : Text) : Text :=
  (text.rows.flatMap beforeComment).filter isBrace

end Text

/-! ## What a scan counts -/

/-- The open braces after one more character that is not in a comment. -/
def openAfter (depth : Nat) (c : Char) : Nat :=
  if c = '{' then depth + 1 else if c = '}' then depth - 1 else depth

namespace BraceScan

variable {c : Char} {row : Text}

/-- Outside of comments every other character counts. -/
theorem feed_of_ne (hslash : c ≠ '/') (hfeed : c ≠ '\n') (depth : Nat) (afterSlash : Bool) :
    feed ⟨depth, false, afterSlash⟩ c = ⟨openAfter depth c, false, false⟩ := by
  simp only [feed, openAfter, hslash, hfeed, if_false, Bool.false_eq_true]
  split_ifs <;> rfl

/-- In a comment nothing counts. -/
theorem depth_feedAll_comment (h : '\n' ∉ row) (depth : Nat) (afterSlash : Bool) :
    (feedAll ⟨depth, true, afterSlash⟩ row).depth = depth := by
  induction row generalizing afterSlash with
  | nil => rfl
  | cons c row ih =>
    obtain ⟨hfeed, hrow⟩ := List.ne_and_not_mem_of_not_mem_cons h
    have hstep : ∃ slash, feed ⟨depth, true, afterSlash⟩ c = ⟨depth, true, slash⟩ := by
      by_cases hslash : c = '/'
      · exact ⟨true, by simp [feed, hslash]⟩
      · exact ⟨false, by simp [feed, hslash, Ne.symm hfeed]⟩
    obtain ⟨slash, hstep⟩ := hstep
    rw [feedAll_cons, hstep, ih hrow]

/-- A single slash is forgotten at the next character. -/
theorem depth_feedAll_afterSlash (h : row.head? ≠ some '/') (depth : Nat) :
    (feedAll ⟨depth, false, true⟩ row).depth = (feedAll ⟨depth, false, false⟩ row).depth := by
  cases row with
  | nil => rfl
  | cons c row =>
    have hslash : c ≠ '/' := by simpa using h
    simp [feed, hslash]

/-- On a row what stands before the comment counts. -/
theorem depth_feedAll_row (h : '\n' ∉ row) (depth : Nat) :
    (feedAll ⟨depth, false, false⟩ row).depth = row.beforeComment.foldl openAfter depth := by
  induction row generalizing depth with
  | nil => rfl
  | cons c row ih =>
    obtain ⟨hfeed, hrow⟩ := List.ne_and_not_mem_of_not_mem_cons h
    by_cases hslash : c = '/'
    · subst hslash
      have hstep : feed ⟨depth, false, false⟩ '/' = ⟨depth, false, true⟩ := rfl
      rw [feedAll_cons, hstep, Text.beforeComment]
      by_cases hcomment : row.head? = some '/'
      · obtain ⟨rest, rfl⟩ := List.head?_eq_some_iff.mp hcomment
        have hsecond : feed ⟨depth, false, true⟩ '/' = ⟨depth, true, true⟩ := rfl
        have hrest := (List.ne_and_not_mem_of_not_mem_cons hrow).2
        rw [if_pos ⟨rfl, rfl⟩, feedAll_cons, hsecond, depth_feedAll_comment hrest]
        rfl
      · rw [if_neg fun hboth => hcomment hboth.2, depth_feedAll_afterSlash hcomment, ih hrow]
        rfl
    · rw [feedAll_cons, feed_of_ne hslash (Ne.symm hfeed), ih hrow, Text.beforeComment,
        if_neg fun hboth => hslash hboth.1, List.foldl_cons]

/-- Other characters than braces change nothing. -/
theorem foldl_openAfter_filter (text : Text) (depth : Nat) :
    (text.filter Text.isBrace).foldl openAfter depth = text.foldl openAfter depth := by
  rw [List.foldl_filter]
  congr
  funext depth c
  by_cases hbrace : Text.isBrace c = true
  · rw [if_pos hbrace]
  · simp only [Text.isBrace, Bool.or_eq_true, beq_iff_eq, not_or] at hbrace
    simp [openAfter, Text.isBrace, hbrace]

/-- A scan that begins outside of comments counts the braces outside of comments. -/
theorem depth_feedAll (text : Text) (depth : Nat) :
    (feedAll ⟨depth, false, false⟩ text).depth = text.codeBraces.foldl openAfter depth := by
  rw [Text.codeBraces, foldl_openAfter_filter]
  induction text using Text.rowInduction generalizing depth with
  | last row hrow => simp [Text.rows_of_not_mem hrow, depth_feedAll_row hrow]
  | more row rest hrow ih =>
    -- the line feed leaves nothing of the row but its depth
    rw [feedAll_append, feedAll_cons, feed_newline, depth_feedAll_row hrow, ih,
      Text.rows_append_newline hrow, List.flatMap_cons, List.foldl_append]

end BraceScan

/-! ## The greatest surplus -/

/-- How many more braces are opened than closed. -/
def surplus (braces : Text) : Int :=
  braces.count '{' - braces.count '}'

@[simp]
theorem surplus_nil : surplus [] = 0 :=
  rfl

@[simp]
theorem surplus_append (first second : Text) :
    surplus (first ++ second) = surplus first + surplus second := by
  simp only [surplus, List.count_append, Int.natCast_add]
  omega

/-- The count goes along with the surplus, but not below zero. -/
theorem openAfter_eq (depth : Nat) (c : Char) :
    (openAfter depth c : Int) = max 0 (depth + surplus [c]) := by
  unfold openAfter surplus
  split_ifs with hopen hclose
  · subst hopen
    simp
    omega
  · subst hclose
    simp
    omega
  · simp [hopen, hclose]

/-- Counted from zero, braces are open as far as some end of them opens more than it closes. -/
theorem isGreatest_foldl_openAfter (braces : Text) :
    IsGreatest {n : Int | ∃ ending, ending <:+ braces ∧ surplus ending = n}
      (braces.foldl openAfter 0 : Nat) := by
  induction braces using List.reverseRecOn with
  | nil => simp [IsGreatest, upperBounds]
  | append_singleton braces c ih =>
    obtain ⟨⟨longest, hlongest, hsurplus⟩, hbound⟩ := ih
    rw [List.foldl_append, List.foldl_cons, List.foldl_nil, openAfter_eq]
    constructor
    · -- either the last character leaves nothing open, or it goes on with the best end so far
      rcases le_total (((braces.foldl openAfter 0 : Nat) : Int) + surplus [c]) 0 with hnone | hsome
      · exact ⟨[], List.nil_suffix, by simp [hnone]⟩
      · refine ⟨longest ++ [c], ?_, ?_⟩
        · exact List.suffix_concat_iff.mpr (Or.inr ⟨longest, rfl, hlongest⟩)
        · rw [surplus_append, hsurplus, max_eq_right hsome]
    · rintro n ⟨ending, hending, rfl⟩
      rcases List.suffix_concat_iff.mp hending with rfl | ⟨front, rfl, hfront⟩
      · exact le_max_left _ _
      · have hle := hbound ⟨front, hfront, rfl⟩
        rw [surplus_append]
        omega

/--
The depth at the end of a text is the greatest surplus that an end of its braces has, where those
in comments do not count and the empty end is one of them.
-/
theorem isGreatest_indentDepth (text : Text) :
    IsGreatest {n : Int | ∃ braces, braces <:+ text.codeBraces ∧ surplus braces = n}
      (indentDepth text) := by
  have hdepth : indentDepth text = text.codeBraces.foldl openAfter 0 :=
    BraceScan.depth_feedAll text 0
  rw [hdepth]
  exact isGreatest_foldl_openAfter text.codeBraces

/-- A brace that closes nothing, slashes that are apart, and a brace in a comment. -/
example : indentDepth ['}', '{', '/', ' ', '/', '{', '/', '/', '}', '\n'] = 2 := by decide

end ScratchEditor

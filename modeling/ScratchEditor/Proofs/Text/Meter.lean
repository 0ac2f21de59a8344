import ScratchEditor.Text.Encoding

/-!
# What a meter reads

A meter only moves forward, and adds up the characters of the stretches that it passes.  What it
reads at a byte position depends on the greatest position alone that it was asked for so far: it
reads the number of characters before that position, as if it had counted them from the beginning
of the text.  Asked for positions in order it counts each of them like that.

Main definitions:

- `Text.IsBoundary`: a byte position between two characters.
- `OffsetMeter.reached`: the meter that was asked for a byte position and none behind it.

Main results:

- `OffsetMeter.advance_reached`: what one position makes of a meter.
- `OffsetMeter.getElem?_readings`: what a meter reads at one of some positions.
- `OffsetMeter.readings_count`: readings at positions in any order, and in order.
-/

namespace ScratchEditor

namespace Text

/-! ## Counting from the beginning -/

/-- The text can be cut at a byte position. -/
def IsBoundary (text : Text) (bytes : Nat) : Prop :=
  ∃ before after, text = before ++ after ∧ before.byteLength = bytes

/-- As many characters stand before a cut as the text before it has. -/
theorem charsBefore_byteLength (before after : Text) :
    charsBefore (before ++ after) before.byteLength = before.length := by
  have hoffset : byteOffset (before ++ after) before.length = before.byteLength := by
    rw [byteOffset, List.take_left]
  rw [← hoffset, charsBefore_byteOffset, List.length_append]
  exact Nat.min_eq_left (Nat.le_add_right _ _)

theorem charsBefore_mono (text : Text) {i j : Nat} (h : i ≤ j) :
    text.charsBefore i ≤ text.charsBefore j := by
  induction text generalizing i j with
  | nil => exact Nat.le_refl 0
  | cons c rest ih =>
    rw [charsBefore, charsBefore]
    by_cases hi : c.utf8Size ≤ i
    · rw [if_pos hi, if_pos (Nat.le_trans hi h)]
      exact Nat.succ_le_succ (ih (Nat.sub_le_sub_right h _))
    · rw [if_neg hi]
      exact Nat.zero_le _

/-- Past the end of a text all of its characters have been counted. -/
theorem charsBefore_min (text : Text) (bytes : Nat) :
    text.charsBefore (min bytes text.byteLength) = text.charsBefore bytes := by
  rcases Nat.le_total bytes text.byteLength with hle | hle
  · rw [Nat.min_eq_left hle]
  · have hwhole := charsBefore_byteLength text []
    rw [List.append_nil] at hwhole
    rw [Nat.min_eq_right hle]
    exact Nat.le_antisymm (text.charsBefore_mono hle) (hwhole ▸ text.charsBefore_le bytes)

/-- A text can be cut at its end. -/
theorem isBoundary_min {text : Text} {bytes : Nat}
    (h : text.IsBoundary bytes ∨ text.byteLength ≤ bytes) :
    text.IsBoundary (min bytes text.byteLength) := by
  rcases h with ⟨before, after, rfl, rfl⟩ | hpast
  · refine ⟨before, after, rfl, ?_⟩
    rw [byteLength_append, Nat.min_eq_left (Nat.le_add_right _ _)]
  · rw [Nat.min_eq_right hpast]
    exact ⟨text, [], (List.append_nil text).symm, rfl⟩

end Text

namespace OffsetMeter

/-! ## Positions that were asked for -/

/-- A meter of a text that was asked for a byte position, and for none behind it. -/
def reached (text : Text) (greatest : Nat) : OffsetMeter :=
  ⟨text, min greatest text.byteLength, text.charsBefore greatest⟩

/-- A meter at a cut has counted the characters before it. -/
theorem reached_byteLength (before after : Text) :
    reached (before ++ after) before.byteLength =
      ⟨before ++ after, before.byteLength, before.length⟩ := by
  rw [reached, Text.charsBefore_byteLength, Text.byteLength_append,
    Nat.min_eq_left (Nat.le_add_right _ _)]

/-- Asked for one more position, a meter stands at the greater one. -/
theorem advance_reached (text : Text) (greatest target : Nat) :
    (reached text greatest).advance target = reached text (max greatest target) := by
  unfold advance reached
  dsimp only
  by_cases hmoves : min greatest text.byteLength < target
  · have hstop : min target text.byteLength = min (max greatest target) text.byteLength := by omega
    have hcount := text.charsBefore_mono (Nat.le_max_left greatest target)
    rw [if_pos hmoves, hstop, Text.length_sliceBytes, Text.charsBefore_min, Text.charsBefore_min,
      Nat.add_sub_cancel' hcount]
  · have hsame : min (max greatest target) text.byteLength = min greatest text.byteLength := by
      omega
    have hcount := text.charsBefore_min (max greatest target)
    rw [if_neg hmoves, ← hcount, hsame, Text.charsBefore_min]

/-- At each position a meter reads the characters before the greatest one so far. -/
theorem getElem?_readings (text : Text) (greatest : Nat) {targets : List Nat} {i : Nat}
    (h : i < targets.length) :
    ((reached text greatest).readings targets)[i]? =
      some (text.charsBefore ((targets.take (i + 1)).foldl max greatest)) := by
  induction targets generalizing greatest i with
  | nil => cases h
  | cons target rest ih =>
    rw [readings, advance_reached]
    cases i with
    | zero => rfl
    | succ i => exact ih (max greatest target) (Nat.lt_of_succ_lt_succ h)

/-- At positions in order a meter reads what is counted from the beginning for each of them. -/
theorem readings_of_pairwise (text : Text) {greatest : Nat} {targets : List Nat}
    (h : (greatest :: targets).Pairwise (· ≤ ·)) :
    (reached text greatest).readings targets = targets.map text.charsBefore := by
  induction targets generalizing greatest with
  | nil => rfl
  | cons target rest ih =>
    obtain ⟨hfirst, hrest⟩ := List.pairwise_cons.mp h
    have hmax : max greatest target = target := Nat.max_eq_right (hfirst target List.mem_cons_self)
    rw [readings, advance_reached, hmax, ih hrest]
    rfl

/--
A meter begins where a text is cut, with the number of characters before the cut.  It is asked for
byte positions at which the text can be cut, or past its end, in any order.  Each time it reads how
many characters stand before the greatest position so far, the first one included, or before the
end of the text.  At positions that do not decrease these are the counts from the beginning, and
at the byte positions of characters their offsets, at most the length of the text.
-/
theorem readings_count (front back : Text) :
    let text := front ++ back
    let first := front.byteLength
    let meter : OffsetMeter := ⟨text, first, front.length⟩
    (∀ targets, (∀ target ∈ targets, text.IsBoundary target ∨ text.byteLength ≤ target) →
      (∀ i, i < targets.length → ∃ before after, text = before ++ after ∧
        before.byteLength = min ((targets.take (i + 1)).foldl max first) text.byteLength ∧
        (meter.readings targets)[i]? = some before.length) ∧
      ((first :: targets).Pairwise (· ≤ ·) →
        meter.readings targets = targets.map text.charsBefore)) ∧
    ∀ offsets : List Nat, (first :: offsets.map text.byteOffset).Pairwise (· ≤ ·) →
      meter.readings (offsets.map text.byteOffset) = offsets.map (min · text.length) := by
  intro text first meter
  have hmeter : meter = reached text first := (reached_byteLength front back).symm
  have hfirst : text.IsBoundary first := ⟨front, back, rfl, rfl⟩
  rw [hmeter]
  refine ⟨?_, ?_⟩
  · intro targets htargets
    refine ⟨?_, readings_of_pairwise text⟩
    intro i hi
    -- the greatest position is one of those asked for, so the text can be cut there or at its end
    have hgreatest : text.IsBoundary
        (min ((targets.take (i + 1)).foldl max first) text.byteLength) := by
      have hmem : (targets.take (i + 1)).foldl max first ∈ first :: targets.take (i + 1) :=
        List.max?_mem List.max?_cons'
      apply Text.isBoundary_min
      rcases List.mem_cons.mp hmem with hstart | hasked
      · rw [hstart]
        exact Or.inl hfirst
      · exact htargets _ (List.mem_of_mem_take hasked)
    obtain ⟨before, after, hcut, hbytes⟩ := hgreatest
    refine ⟨before, after, hcut, hbytes, ?_⟩
    rw [getElem?_readings text first hi, ← Text.charsBefore_min, ← hbytes, hcut,
      Text.charsBefore_byteLength]
  · intro offsets horder
    rw [readings_of_pairwise text horder, List.map_map]
    exact List.map_congr_left fun offset _ => text.charsBefore_byteOffset offset

/-- Behind a letter of two bytes a meter is sent to the next letter, past the end and back. -/
theorem readings_count_back :
    let text : Text := ['é', '1'] ++ ['→', '2']
    let meter : OffsetMeter := ⟨text, 3, 2⟩
    (∀ target ∈ [6, 99, 2], text.IsBoundary target ∨ text.byteLength ≤ target) ∧
      (∃ before after, text = before ++ after ∧ before.byteLength = 7 ∧
        (meter.readings [6, 99, 2])[2]? = some before.length) ∧
      (3 :: [2, 3, 9].map text.byteOffset).Pairwise (· ≤ ·) ∧
      meter.readings ([2, 3, 9].map text.byteOffset) = [2, 3, 4] := by
  intro text meter
  have htargets : ∀ target ∈ [6, 99, 2], text.IsBoundary target ∨ text.byteLength ≤ target := by
    intro target hmem
    simp only [List.mem_cons, List.not_mem_nil, or_false] at hmem
    rcases hmem with rfl | rfl | rfl
    · exact Or.inl ⟨['é', '1', '→'], ['2'], rfl, rfl⟩
    · exact Or.inr (by decide)
    · exact Or.inl ⟨['é'], ['1', '→', '2'], rfl, rfl⟩
  have horder : (3 :: [2, 3, 9].map text.byteOffset).Pairwise (· ≤ ·) := by decide
  obtain ⟨hany, hoffsets⟩ := readings_count ['é', '1'] ['→', '2']
  obtain ⟨before, after, hcut, hbytes, hread⟩ := (hany [6, 99, 2] htargets).1 2 (by decide)
  exact ⟨htargets, ⟨before, after, hcut, hbytes, hread⟩, horder, hoffsets [2, 3, 9] horder⟩

end OffsetMeter

end ScratchEditor

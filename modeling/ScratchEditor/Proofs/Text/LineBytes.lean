import ScratchEditor.Proofs.Text.LineExtents

/-!
# Whole lines in bytes

The lines that an extent touches are looked for in the bytes of the text: their beginning by the
last line feed before the extent, their end by the first one from its last character on.  Both
searches end at characters, and what stands between them are the lines from the one that holds
the beginning of the extent to the one that holds its last character.

Main results:

- `Text.linesInBytes_eq`: the search in bytes finds the whole lines.
- `Text.wholeLines_wholeLines`: whole lines are not widened any further.
- `Text.linesInBytes_lines`: the whole lines are those between the lines of two offsets.
-/

namespace ScratchEditor

namespace Text

variable {text before line : Text} {i j : Nat}

/-! ## Searching for line feeds -/

/-- The first line ends behind the first line feed. -/
theorem byteOf?_newline (text : Text) :
    (byteOf? '\n' text = none ∧ firstLine text = text) ∨
      ∃ byte, byteOf? '\n' text = some byte ∧ (firstLine text).byteLength = byte + 1 := by
  induction text with
  | nil => exact Or.inl ⟨rfl, rfl⟩
  | cons c text ih =>
    unfold byteOf? firstLine
    by_cases hfeed : c = '\n'
    · rw [if_pos hfeed, if_pos hfeed, hfeed]
      exact Or.inr ⟨0, rfl, rfl⟩
    · rw [if_neg hfeed, if_neg hfeed]
      rcases ih with ⟨hnone, hall⟩ | ⟨byte, hsome, hlength⟩
      · rw [hnone, hall]
        exact Or.inl ⟨rfl, rfl⟩
      · rw [hsome, byteLength, hlength]
        exact Or.inr ⟨c.utf8Size + byte, rfl, (Nat.add_assoc _ _ _).symm⟩

theorem lastByteOf?_eq_none {kind : Char} (h : kind ∉ text) : lastByteOf? kind text = none := by
  induction text with
  | nil => rfl
  | cons c text ih =>
    obtain ⟨hkind, hrest⟩ := List.ne_and_not_mem_of_not_mem_cons h
    rw [lastByteOf?, ih hrest, if_neg (Ne.symm hkind)]

/-- The last line begins behind the last line feed. -/
theorem lastByteOf?_newline (hbefore : before.EndsLine) (hline : '\n' ∉ line) :
    (lastByteOf? '\n' (before ++ line) = none ∧ before = []) ∨
      ∃ byte, lastByteOf? '\n' (before ++ line) = some byte ∧ before.byteLength = byte + 1 := by
  induction before with
  | nil => exact Or.inl ⟨lastByteOf?_eq_none hline, rfl⟩
  | cons c before ih =>
    right
    rw [List.cons_append, lastByteOf?, byteLength]
    rcases ih (EndsLine.right (a := [c]) hbefore) with ⟨hnone, rfl⟩ | ⟨byte, hsome, hlength⟩
    · obtain rfl : c = '\n' := hbefore c rfl
      rw [hnone]
      exact ⟨0, rfl, rfl⟩
    · rw [hsome, hlength]
      exact ⟨c.utf8Size + byte, rfl, (Nat.add_assoc _ _ _).symm⟩

/-! ## Bytes of offsets -/

theorem byteOffset_length (text : Text) : text.byteOffset text.length = text.byteLength := by
  rw [byteOffset, List.take_length]

/-- An offset past the text stands at its end. -/
theorem byteOffset_min (text : Text) (offset : Nat) :
    text.byteOffset (min offset text.length) = text.byteOffset offset := by
  rw [byteOffset, byteOffset, ← List.take_take, List.take_length]

theorem max_byteOffset (text : Text) (i j : Nat) :
    max (text.byteOffset i) (text.byteOffset j) = text.byteOffset (max i j) := by
  rcases Nat.le_total i j with hle | hle
  · rw [Nat.max_eq_right hle, Nat.max_eq_right (text.byteOffset_mono hle)]
  · rw [Nat.max_eq_left hle, Nat.max_eq_left (text.byteOffset_mono hle)]

/-- Behind a beginning of a text as many bytes have passed as it takes. -/
theorem byteOffset_left (front rest : Text) :
    byteOffset (front ++ rest) front.length = front.byteLength := by
  rw [byteOffset, List.take_left]

theorem byteOffset_add (text : Text) (i j : Nat) :
    text.byteOffset (i + j) = text.byteOffset i + byteLength ((text.drop i).take j) := by
  rw [byteOffset, byteOffset, List.take_add, byteLength_append]

theorem sliceBytes_between (hle : i ≤ j) (hlast : j ≤ text.length) :
    text.sliceBytes (text.byteOffset i) (text.byteOffset j) = text.slice (Extent.between i j) := by
  have hstop := Extent.stop_between hle
  have hslice := sliceBytes_byteOffset (hstop.symm ▸ hlast)
  rwa [hstop] at hslice

theorem length_slice_between (hlast : j ≤ text.length) :
    (text.slice (Extent.between i j)).length = j - i := by
  rw [slice, List.length_take, List.length_drop]
  exact Nat.min_eq_left (Nat.sub_le_sub_right hlast i)

/-! ## The lines of two offsets -/

/-- The first offset that an extent touches; an extent past the text touches its end. -/
def firstTouched (text : Text) (extent : Extent) : Nat :=
  min extent.start text.length

/-- The last offset that an extent touches, which is the first one if the extent is empty. -/
def lastTouched (text : Text) (extent : Extent) : Nat :=
  if extent.isEmpty then text.firstTouched extent
  else max (text.firstTouched extent) (min (extent.stop - 1) text.length)

/-- The last offset that an extent touches by the word that its end is. -/
def lastReached (text : Text) (extent : Extent) : Nat :=
  if extent.isEmpty then text.firstTouched extent
  else max (text.firstTouched extent) (min (extent.touched text.length) text.length)

/-- The word is the last offset of an extent that fits. -/
theorem lastReached_eq (text : Text) {extent : Extent} (h : extent.Fits) :
    text.lastReached extent = text.lastTouched extent := by
  unfold lastReached lastTouched
  split
  · rfl
  · rename_i hsome
    rw [Extent.touched_eq (h.reach_eq _) (Bool.eq_false_iff.mpr hsome)]

theorem firstTouched_le_lastReached (text : Text) (extent : Extent) :
    text.firstTouched extent ≤ text.lastReached extent := by
  unfold lastReached
  split
  · exact Nat.le_refl _
  · exact Nat.le_max_left _ _

theorem lastReached_le (text : Text) (extent : Extent) :
    text.lastReached extent ≤ text.length := by
  unfold lastReached firstTouched
  split <;> omega

theorem firstTouched_le (text : Text) (extent : Extent) :
    text.firstTouched extent ≤ text.length :=
  Nat.min_le_right _ _

/-- The whole lines go from the line of the first offset through the line of the last one. -/
theorem wholeLines_eq (text : Text) (extent : Extent) :
    text.wholeLines extent =
      Extent.between (text.lineStart (text.firstTouched extent))
        (text.lineStop (text.lastReached extent)) := by
  unfold wholeLines lastReached
  rw [Nat.max_comm]
  rfl

theorem le_lineStop (text : Text) (offset : Nat) : offset ≤ text.lineStop offset :=
  Nat.le_add_right _ _

theorem lineStop_le {offset : Nat} (h : offset ≤ text.length) :
    text.lineStop offset ≤ text.length := by
  obtain ⟨rest, hsplit, -⟩ := exists_firstLine (text.drop offset)
  have hlength := congrArg List.length hsplit
  rw [List.length_append, List.length_drop] at hlength
  unfold lineStop
  omega

theorem lineStart_le_lineStop (text : Text) (extent : Extent) :
    text.lineStart (text.firstTouched extent) ≤ text.lineStop (text.lastReached extent) :=
  Nat.le_trans (text.lineStart_le _)
    (Nat.le_trans (text.firstTouched_le_lastReached extent) (text.le_lineStop _))

theorem stop_wholeLines (text : Text) (extent : Extent) :
    (text.wholeLines extent).stop = text.lineStop (text.lastReached extent) := by
  rw [wholeLines_eq, Extent.stop_between (text.lineStart_le_lineStop extent)]

/-- Whole lines without a character are the end of the text. -/
theorem stop_of_isEmpty (text : Text) {extent : Extent}
    (h : (text.wholeLines extent).isEmpty = true) :
    (text.wholeLines extent).stop = text.length := by
  have hlength : (text.wholeLines extent).length = 0 := by simpa [Extent.isEmpty] using h
  have hstop := text.stop_wholeLines extent
  have hstart : (text.wholeLines extent).start ≤ text.lastReached extent := by
    rw [wholeLines_eq]
    exact Nat.le_trans (text.lineStart_le _) (text.firstTouched_le_lastReached extent)
  have hend : ¬ text.lastReached extent < text.length := by
    intro hlt
    have hpast := lt_lineStop hlt
    unfold Extent.stop at hstop
    omega
  have hlast := text.lastReached_le extent
  have hpast := text.le_lineStop (text.lastReached extent)
  have hinside := lineStop_le hlast
  omega

/-- Whole lines are not widened any further. -/
theorem wholeLines_wholeLines (text : Text) (extent : Extent) :
    text.wholeLines (text.wholeLines extent) = text.wholeLines extent := by
  obtain ⟨before, touched, after, htext, hlines, hbefore, hends⟩ := text.exists_wholeLines extent
  have hafter : touched.getLast? = some '\n' ∨ after = [] := by
    rcases hends with hends | hnil
    · rcases endsLine_iff.mp hends with rfl | hfeed
      · have hlength := congrArg List.length htext
        have hstop := text.stop_of_isEmpty (by rw [hlines]; rfl)
        rw [hlines, Extent.stop] at hstop
        simp only [List.length_append, List.length_nil] at hlength hstop
        exact Or.inr (List.length_eq_zero_iff.mp (by omega))
      · exact Or.inl hfeed
    · exact Or.inr hnil
  have htail : lineTail touched after = [] := by
    unfold lineTail
    rcases hafter with hfeed | rfl
    · exact if_pos hfeed
    · split <;> rfl
  have haround := @wholeLines_around before [] touched after hbefore List.not_mem_nil
  rw [List.nil_append, ← htext, htail, List.append_nil] at haround
  rw [hlines]
  exact haround

/-! ## The bytes of whole lines -/

/-- The line of an offset begins behind the last line feed before it. -/
theorem byteOffset_lineStart {offset : Nat} (h : offset ≤ text.length) :
    (lastByteOf? '\n' (text.take offset)).elim 0 (· + 1) =
      text.byteOffset (text.lineStart offset) := by
  obtain ⟨before, line, htake, htext, hbefore, hline, hstart⟩ := exists_lineStart h
  have hbytes : text.byteOffset (text.lineStart offset) = before.byteLength := by
    rw [hstart, byteOffset]
    conv_lhs => rw [htext]
    rw [List.take_left]
  rw [hbytes, htake]
  rcases lastByteOf?_newline hbefore hline with ⟨hnone, rfl⟩ | ⟨byte, hsome, hlength⟩
  · rw [hnone]
    rfl
  · rw [hsome, hlength]
    rfl

/-- The line of an offset ends behind the first line feed from it on. -/
theorem byteOffset_lineStop (text : Text) (offset : Nat) :
    (byteOf? '\n' (text.drop offset)).elim text.byteLength (text.byteOffset offset + · + 1) =
      text.byteOffset (text.lineStop offset) := by
  obtain ⟨rest, hsplit, -⟩ := exists_firstLine (text.drop offset)
  have hprefix : firstLine (text.drop offset) <+: text.drop offset := ⟨rest, hsplit.symm⟩
  rw [lineStop, byteOffset_add, ← List.prefix_iff_eq_take.mp hprefix]
  rcases byteOf?_newline (text.drop offset) with ⟨hnone, hall⟩ | ⟨byte, hsome, hlength⟩
  · rw [hnone, hall, byteOffset, ← byteLength_append, List.take_append_drop]
    rfl
  · rw [hsome, hlength]
    rfl

/-- The search in bytes finds the whole lines, and ends at their characters. -/
theorem linesInBytes_eq (text : Text) (extent : Extent) :
    text.linesInBytes extent =
      ⟨text.wholeLines extent, text.byteOffset (text.wholeLines extent).start,
        text.byteOffset (text.wholeLines extent).stop⟩ := by
  have hfirst := text.firstTouched_le extent
  have hlast := text.lastReached_le extent
  have hhere : text.byteOffset extent.start = text.byteOffset (text.firstTouched extent) :=
    (text.byteOffset_min _).symm
  have hprobe : (if extent.isEmpty then text.byteOffset extent.start
      else max (text.byteOffset (extent.touched text.length)) (text.byteOffset extent.start)) =
      text.byteOffset (text.lastReached extent) := by
    unfold lastReached
    rw [hhere]
    split
    · rfl
    · rw [← max_byteOffset, byteOffset_min, Nat.max_comm]
  have hbefore : text.sliceBytes 0 (text.byteOffset (text.firstTouched extent)) =
      text.take (text.firstTouched extent) :=
    sliceBytes_between (Nat.zero_le _) hfirst
  have hafter : text.sliceBytes (text.byteOffset (text.lastReached extent)) text.byteLength =
      text.drop (text.lastReached extent) := by
    rw [← byteOffset_length, sliceBytes_between hlast (Nat.le_refl _), slice]
    exact List.take_of_length_le (by rw [List.length_drop]; exact Nat.le_refl _)
  have hstart : text.lineStart (text.firstTouched extent) ≤ text.length :=
    Nat.le_trans (text.lineStart_le _) hfirst
  have hstop := lineStop_le hlast
  have habove : (text.sliceBytes 0
      (text.byteOffset (text.lineStart (text.firstTouched extent)))).length =
      text.lineStart (text.firstTouched extent) := by
    have hslice := sliceBytes_between (Nat.zero_le _) hstart
    have hlength := length_slice_between (i := 0) hstart
    rw [← hslice] at hlength
    exact hlength
  have htouched := length_slice_between (i := text.lineStart (text.firstTouched extent)) hstop
  rw [← sliceBytes_between (text.lineStart_le_lineStop extent) hstop] at htouched
  unfold linesInBytes
  dsimp only
  rw [hprobe, hhere, hbefore, hafter, byteOffset_lineStart hfirst, byteOffset_lineStop, habove,
    htouched, stop_wholeLines, wholeLines_eq]
  rfl

/-- The bytes that are found select the whole lines. -/
theorem sliceBytes_linesInBytes (text : Text) (extent : Extent) :
    text.sliceBytes (text.linesInBytes extent).firstByte (text.linesInBytes extent).stopByte =
      text.slice (text.wholeLines extent) := by
  rw [linesInBytes_eq]
  exact sliceBytes_byteOffset (text.stop_wholeLines_le extent)

theorem linesInBytes_linesInBytes (text : Text) (extent : Extent) :
    text.linesInBytes (text.linesInBytes extent).extent = text.linesInBytes extent := by
  rw [linesInBytes_eq, linesInBytes_eq, wholeLines_wholeLines]

/-! ## The lines between two lines -/

/-- A line begins where the line of its offsets begins, and ends where that one ends. -/
theorem bounds_of_lineHolds {index offset : Nat} (h : offset ≤ text.length)
    (hholds : text.LineHolds index offset) :
    text.lineStart offset = (text.lines.take index).flatten.length ∧
      text.lineStop offset = (text.lines.take (index + 1)).flatten.length := by
  rw [lineHolds_iff h] at hholds
  have hbounds := bounds_of_getElem? (getElem?_linesAbove h)
  have horder := Nat.le_trans (text.lineStart_le offset) (text.le_lineStop offset)
  rw [Extent.stop_between horder] at hbounds
  rw [hholds]
  exact hbounds

/-- Whole lines cut out of a text, as the search in bytes finds them. -/
theorem linesInBytes_of_cut {above touched below : Text} {extent : Extent}
    (htext : text = above ++ (touched ++ below))
    (hlines : text.wholeLines extent = ⟨above.length, touched.length⟩) :
    text.linesInBytes extent = ⟨⟨above.length, touched.length⟩, above.byteLength,
      above.byteLength + touched.byteLength⟩ := by
  have hstop : Extent.stop ⟨above.length, touched.length⟩ = (above ++ touched).length :=
    List.length_append.symm
  have hfirst : text.byteOffset above.length = above.byteLength := by
    rw [htext]
    exact byteOffset_left above _
  have hlast : text.byteOffset (above ++ touched).length = (above ++ touched).byteLength := by
    rw [htext, ← List.append_assoc]
    exact byteOffset_left (above ++ touched) _
  rw [linesInBytes_eq, hlines, hstop, hfirst, hlast, byteLength_append]

/--
Every offset of a text is held by one line.  The lines that an extent touches, if its end is a
word, are those from the line of its first offset through the line of its last one.  They are found
in bytes between the lines above and the lines below, and widening them again changes nothing.
-/
theorem linesInBytes_lines (text : Text) {extent : Extent} (h : extent.Fits) :
    (∀ offset ≤ text.length, ∃! index, text.LineHolds index offset) ∧
      ∃ i j, i ≤ j ∧ text.LineHolds i (text.firstTouched extent) ∧
        text.LineHolds j (text.lastTouched extent) ∧
        let above : Text := (text.lines.take i).flatten
        let touched : Text := ((text.lines.take (j + 1)).drop i).flatten
        let below : Text := (text.lines.drop (j + 1)).flatten
        let region := text.linesInBytes extent
        text = above ++ (touched ++ below) ∧
          region.extent = ⟨above.length, touched.length⟩ ∧
          region.firstByte = above.byteLength ∧
          region.stopByte = above.byteLength + touched.byteLength ∧
          text.sliceBytes region.firstByte region.stopByte = touched ∧
          text.linesInBytes region.extent = region := by
  refine ⟨fun offset hoffset => ⟨text.linesAbove offset, lineHolds_linesAbove hoffset,
    fun index => (lineHolds_iff hoffset).mp⟩, ?_⟩
  rw [← text.lastReached_eq h]
  have hfirst := text.firstTouched_le extent
  have hlast := text.lastReached_le extent
  obtain ⟨i, hi⟩ : ∃ i, i = text.linesAbove (text.firstTouched extent) := ⟨_, rfl⟩
  obtain ⟨j, hj⟩ : ∃ j, j = text.linesAbove (text.lastReached extent) := ⟨_, rfl⟩
  have hij : i ≤ j := by
    rw [hi, hj]
    exact linesAbove_mono (text.firstTouched_le_lastReached extent)
  have hholds := hi ▸ lineHolds_linesAbove hfirst
  have hholds' := hj ▸ lineHolds_linesAbove hlast
  refine ⟨i, j, hij, hholds, hholds', ?_⟩
  intro above touched below region
  have htext : text = above ++ (touched ++ below) :=
    text.flatten_lines_between (Nat.le_succ_of_le hij)
  have hstart := (bounds_of_lineHolds hfirst hholds).1
  have hstop := (bounds_of_lineHolds hlast hholds').2
  rw [text.flatten_take_lines (Nat.le_succ_of_le hij), List.length_append] at hstop
  have hlines : text.wholeLines extent = ⟨above.length, touched.length⟩ := by
    rw [wholeLines_eq, hstart, hstop, Extent.between_add]
  have hregion : region = _ := linesInBytes_of_cut htext hlines
  have hslice : text.slice ⟨above.length, touched.length⟩ = touched := by
    rw [slice]
    conv_lhs => rw [htext, List.drop_left, List.take_left]
  refine ⟨htext, by rw [hregion], by rw [hregion], by rw [hregion], ?_,
    text.linesInBytes_linesInBytes extent⟩
  rw [text.sliceBytes_linesInBytes extent, hlines, hslice]

/-- From a line feed past the end of the text, with characters of several bytes. -/
theorem linesInBytes_lines_past_end :
    let text : Text := ['é', '\n', '→', '\n']
    Extent.Fits ⟨3, 9⟩ ∧ 4 ≤ text.length ∧ (∃! index, text.LineHolds index 4) ∧
      ∃ i j, i ≤ j ∧ text.LineHolds i (text.firstTouched ⟨3, 9⟩) ∧
        text.LineHolds j (text.lastTouched ⟨3, 9⟩) ∧
        (text.linesInBytes ⟨3, 9⟩).extent = ⟨(text.lines.take i).flatten.length,
          ((text.lines.take (j + 1)).drop i).flatten.length⟩ ∧
        text.linesInBytes ⟨3, 9⟩ = ⟨⟨2, 2⟩, 3, 7⟩ := by
  intro text
  have hfits : Extent.Fits ⟨3, 9⟩ := by decide
  obtain ⟨hunique, i, j, hij, hi, hj, -, hextent, -⟩ := linesInBytes_lines text hfits
  exact ⟨hfits, by decide, hunique 4 (by decide), i, j, hij, hi, hj, hextent, by decide⟩

/-- The longest extent that begins on a second line ends at one, so the third line is not found,
though the extent holds its offsets. -/
theorem not_linesInBytes_lines_longest :
    let text : Text := ['a', '\n', 'b', '\n', 'c']
    let extent : Extent := ⟨2, Extent.wordSize - 1⟩
    extent.holds 4 = true ∧ text.linesInBytes extent = ⟨⟨2, 2⟩, 2, 4⟩ ∧
      ¬ ∃ i j, text.LineHolds i (text.firstTouched extent) ∧
        text.LineHolds j (text.lastTouched extent) ∧
        (text.linesInBytes extent).extent = ⟨(text.lines.take i).flatten.length,
          ((text.lines.take (j + 1)).drop i).flatten.length⟩ := by
  intro text extent
  have hfound : text.linesInBytes extent = ⟨⟨2, 2⟩, 2, 4⟩ := by decide
  refine ⟨by decide, hfound, ?_⟩
  rintro ⟨i, j, hi, hj, hextent⟩
  obtain rfl : i = 1 := (lineHolds_iff (text.firstTouched_le extent)).mp hi
  obtain rfl : j = 2 := (lineHolds_iff (by decide)).mp hj
  rw [hfound] at hextent
  exact absurd hextent (by decide)

end Text

end ScratchEditor

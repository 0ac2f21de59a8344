import ScratchEditor.Proofs.Text.Words
import ScratchEditor.Text.Jump

/-!
# Payloads

The text of a link names a row and a column with a comma in between.  Each of the two may be
written in many ways: with blanks around it, with a plus sign and with zeros in front.  The way a
spot is written is one of them, so it is read back.

Main definitions:

- `Text.SpellsCount`: the ways to write a count.
- `Text.SpellsPadded`: the same with blanks around them.

Main results:

- `readCount_eq_ok_iff`: the texts that are read as a count.
- `splitAtComma_eq_some_iff`: where a text is cut.
- `Spot.parse_spelled`: the payloads that are read as a spot, its own among them.
-/

namespace ScratchEditor

namespace Text

/-- A way to write a count: its digits, behind at most one plus sign. -/
def SpellsCount (text : Text) (n : Nat) : Prop :=
  ∃ sign digits : Text, text = sign ++ digits ∧ (sign = [] ∨ sign = ['+']) ∧ digits ≠ [] ∧
    (∀ c ∈ digits, c.isDigit = true) ∧ Nat.ofDigitChars 10 digits 0 = n ∧ n < countLimit

/-- A way to write a count, with blanks around it. -/
def SpellsPadded (text : Text) (n : Nat) : Prop :=
  ∃ left count right : Text, text = left ++ (count ++ right) ∧
    (∀ c ∈ left, isBlank c = true) ∧ count.SpellsCount n ∧ ∀ c ∈ right, isBlank c = true

end Text

variable {text left right : Text} {n : Nat} {c : Char}

/-! ## Counts -/

theorem isBlank_of_isDigit (h : c.isDigit = true) : isBlank c = false := by
  have hbounds := toNat_of_isDigit h
  -- the digits stand between the space and the next control character
  simp only [isBlank, CodeSet.has, whiteSpace, CodeSet.hasFrom]
  rw [if_neg (by omega), if_neg (by omega), if_neg (by omega), if_neg (by omega),
    if_pos (by omega)]
  rfl

/-- Only digits are read. -/
theorem isDigit_of_readDigits {value : Nat} (h : readDigits value text = .ok n) :
    ∀ c ∈ text, c.isDigit = true := by
  induction text generalizing value with
  | nil => simp
  | cons c text ih =>
    by_cases hdigit : c.isDigit = true
    · rw [readDigits, digitValue?, if_pos hdigit] at h
      dsimp only at h
      split_ifs at h with hnext
      simpa [hdigit] using ih h
    · rw [readDigits, digitValue?, if_neg hdigit] at h
      cases h

/-- From zero on, digits are read as the number they stand for. -/
theorem readDigits_zero_eq_ok_iff :
    readDigits 0 text = .ok n ↔
      (∀ c ∈ text, c.isDigit = true) ∧ Nat.ofDigitChars 10 text 0 = n ∧ n < countLimit := by
  constructor
  · intro h
    have hdigits := isDigit_of_readDigits h
    exact ⟨hdigits, (readDigits_eq_ok_iff hdigits (by decide)).mp h⟩
  · rintro ⟨hdigits, hvalue⟩
    exact (readDigits_eq_ok_iff hdigits (by decide)).mpr hvalue

/-- A text is read as a count if it is a way to write it. -/
theorem readCount_eq_ok_iff : readCount text = .ok n ↔ text.SpellsCount n := by
  constructor
  · intro h
    unfold readCount at h
    split at h
    · cases h
    · cases h
    · rename_i digits hlone
      exact ⟨['+'], digits, rfl, Or.inr rfl, fun hnil => hlone (by rw [hnil]),
        readDigits_zero_eq_ok_iff.mp h⟩
    · rename_i hne hlone hsign
      exact ⟨[], text, rfl, Or.inl rfl, hne, readDigits_zero_eq_ok_iff.mp h⟩
  · rintro ⟨sign, digits, rfl, hsign, hne, hdigits, hvalue⟩
    have hread := readDigits_zero_eq_ok_iff.mpr ⟨hdigits, hvalue⟩
    rcases hsign with rfl | rfl
    · rw [List.nil_append, readCount_of_digits hne hdigits, hread]
    · obtain ⟨c, rest, rfl⟩ := List.exists_cons_of_ne_nil hne
      exact hread

/-- A way to write a count holds no blank. -/
theorem Text.SpellsCount.isWord (h : text.SpellsCount n) : text.IsWord := by
  obtain ⟨sign, digits, rfl, hsign, hne, hdigits, -⟩ := h
  refine ⟨by simp [hne], ?_⟩
  intro c hc
  rcases List.mem_append.mp hc with hc | hc
  · rcases hsign with rfl | rfl
    · cases hc
    · rw [List.mem_singleton.mp hc]
      decide
  · exact isBlank_of_isDigit (hdigits c hc)

/-- Blanks around a count do not matter. -/
theorem readCount_trim_eq_ok_iff : readCount text.trim = .ok n ↔ text.SpellsPadded n := by
  rw [readCount_eq_ok_iff]
  constructor
  · intro h
    obtain ⟨left, right, hsplit, hleft, hright⟩ := text.exists_blanks
    exact ⟨left, text.trim, right, hsplit, hleft, h, hright⟩
  · rintro ⟨left, count, right, rfl, hleft, hcount, hright⟩
    rwa [hcount.isWord.trim_between hleft hright]

/-! ## Payloads -/

theorem splitAtComma_append (h : ',' ∉ left) (right : Text) :
    splitAtComma (left ++ ',' :: right) = some (left, right) := by
  induction left with
  | nil => rfl
  | cons c left ih =>
    obtain ⟨hcomma, hrest⟩ := List.ne_and_not_mem_of_not_mem_cons h
    rw [List.cons_append, splitAtComma, if_neg (Ne.symm hcomma), ih hrest]
    rfl

/-- A text is cut at its first comma. -/
theorem splitAtComma_eq_some_iff :
    splitAtComma text = some (left, right) ↔ text = left ++ ',' :: right ∧ ',' ∉ left := by
  constructor
  · intro h
    have hmem : ',' ∈ text := by
      rw [splitAtComma_eq_some h]
      simp
    obtain ⟨first, rest, rfl, hfirst⟩ := List.eq_append_cons_of_mem hmem
    rw [splitAtComma_append hfirst] at h
    obtain ⟨rfl, rfl⟩ := Prod.mk.inj (Option.some.inj h)
    exact ⟨rfl, hfirst⟩
  · rintro ⟨rfl, hcomma⟩
    exact splitAtComma_append hcomma right

/-- A count is written in one of the ways to write it. -/
theorem spellsPadded_decimal (h : n < countLimit) : (decimal n).SpellsPadded n := by
  refine ⟨[], decimal n, [], by simp, by simp, ?_, by simp⟩
  exact ⟨[], decimal n, rfl, Or.inl rfl, decimal_ne_nil n, isDigit_of_mem_decimal n,
    ofDigitChars_decimal n, h⟩

theorem comma_not_mem_decimal (n : Nat) : ',' ∉ decimal n := fun hmem =>
  absurd (isDigit_of_mem_decimal n ',' hmem) (by decide)

namespace Spot

/-- A payload is read as a spot if both of its parts are read as counts. -/
theorem parse_eq_ok_iff {payload : Text} {spot : Spot} :
    parse payload = .ok spot ↔
      ∃ left right, splitAtComma payload = some (left, right) ∧
        readCount left.trim = .ok spot.row ∧ readCount right.trim = .ok spot.column := by
  constructor
  · intro h
    unfold parse at h
    split at h
    · cases h
    · rename_i left right hcut
      split at h
      · cases h
      · rename_i row hrow
        split at h
        · cases h
        · rename_i column hcolumn
          obtain rfl := Except.ok.inj h
          exact ⟨left, right, hcut, hrow, hcolumn⟩
  · rintro ⟨left, right, hcut, hrow, hcolumn⟩
    simp only [parse, hcut, hrow, hcolumn]

/--
A payload is read as a spot if it is a way to write the row, the first comma and a way to write
the column, where blanks may stand around both.  The payload of a spot whose row and column are
counts is read as that spot.
-/
theorem parse_spelled :
    (∀ (payload : Text) (spot : Spot), parse payload = .ok spot ↔
      ∃ left right : Text, payload = left ++ ',' :: right ∧ ',' ∉ left ∧
        left.SpellsPadded spot.row ∧ right.SpellsPadded spot.column) ∧
    ∀ spot : Spot, spot.row < countLimit → spot.column < countLimit →
      parse spot.payload = .ok spot := by
  have hread (payload : Text) (spot : Spot) : parse payload = .ok spot ↔
      ∃ left right : Text, payload = left ++ ',' :: right ∧ ',' ∉ left ∧
        left.SpellsPadded spot.row ∧ right.SpellsPadded spot.column := by
    simp only [parse_eq_ok_iff, splitAtComma_eq_some_iff, readCount_trim_eq_ok_iff, and_assoc]
  refine ⟨hread, ?_⟩
  intro spot hrow hcolumn
  rw [hread]
  exact ⟨decimal spot.row, decimal spot.column, rfl, comma_not_mem_decimal spot.row,
    spellsPadded_decimal hrow, spellsPadded_decimal hcolumn⟩

/-- The largest count is read back, and with blanks, a plus sign and zeros too. -/
theorem parse_spelled_largest :
    (countLimit - 1 < countLimit ∧ 0 < countLimit ∧
      parse (Spot.payload ⟨countLimit - 1, 0⟩) = .ok ⟨countLimit - 1, 0⟩) ∧
    parse "\u00a0+007 ,\t18446744073709551615".toList = .ok ⟨7, countLimit - 1⟩ := by
  have hlargest : countLimit - 1 < countLimit := by decide
  have hzero : 0 < countLimit := by decide
  have hseven : Text.SpellsPadded "\u00a0+007 ".toList 7 := by
    refine ⟨['\u00a0'], "+007".toList, [' '], rfl, List.all_eq_true.mp rfl, ?_,
      List.all_eq_true.mp rfl⟩
    exact ⟨['+'], "007".toList, rfl, Or.inr rfl, by decide, List.all_eq_true.mp rfl, rfl,
      by decide⟩
  have hbound : Text.SpellsPadded "\t18446744073709551615".toList (countLimit - 1) := by
    refine ⟨['\t'], "18446744073709551615".toList, [], rfl, List.all_eq_true.mp rfl, ?_, by simp⟩
    exact ⟨[], "18446744073709551615".toList, rfl, Or.inl rfl, by decide,
      List.all_eq_true.mp rfl, rfl, hlargest⟩
  refine ⟨⟨hlargest, hzero, parse_spelled.2 ⟨countLimit - 1, 0⟩ hlargest hzero⟩, ?_⟩
  exact (parse_spelled.1 _ _).mpr ⟨_, _, rfl, by decide, hseven, hbound⟩

end Spot

end ScratchEditor

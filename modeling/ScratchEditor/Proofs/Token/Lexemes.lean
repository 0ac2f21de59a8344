import Mathlib.Data.List.Infix
import ScratchEditor.Proofs.Pattern.Rounds
import ScratchEditor.Proofs.Token.Lexer
import ScratchEditor.Proofs.Token.Table

/-!
# The patterns of tokens take what the lexer takes

Matching the tree of a kind of token at a place is compared with the rule of the lexer for
this kind.  The greedy rounds in the patterns take whole runs: inside a run of digits there
is no point and no edge of a word, and inside a run without quotes there is no quote.

Main definitions:

- `Node.stringEnd` and `Node.closedEnd`: the parts of trees that follow the first characters.

Main results:

- `Node.run_forKind`: every pattern takes the characters that the rule of its kind takes.
-/

namespace ScratchEditor

open Lexer CharSet

/-! ## Sets of characters -/

namespace CharSet

/-- A character belongs to the set if it is neither of the two. -/
theorem has_neither (a b : Char) : (CharSet.neither a b).has = fun c => c != a && c != b := by
  funext c
  simp [CharSet.neither, CharSet.has, bne, Bool.beq_eq_decide_eq]

/-- Every character belongs to the set. -/
theorem has_every : CharSet.every.has = fun _ => true := by
  funext c
  simp [CharSet.every, CharSet.has]

/-- The set of the characters of words of ASCII. -/
theorem has_asciiWord : CharSet.asciiWord.has = isAsciiWord := by
  have honly (c : Char) : (CharSet.span '_' '_').has c = (c == '_') := CharSet.has_only '_' c
  funext c
  simp only [CharSet.asciiWord, CharSet.has, Bool.false_or, isAsciiWord, isCapital]
  rw [← honly]
  rfl

end CharSet

/-! ## Runs -/

namespace Lexer

/-- Before an escape the run without quotes and backslashes is empty. -/
theorem runLength_of_escapes {text : Text} (h : escapes text = true) {a : Char} :
    text.runLength (fun c => c != a && c != '\\') = 0 ∧ text.head? = some '\\' := by
  cases text with
  | nil => cases h
  | cons c text =>
    cases text with
    | nil => simp [escapes] at h
    | cons d text =>
      by_cases hc : c = '\\'
      · subst hc
        simp [Text.runLength]
      · simp [escapes, hc] at h

theorem isWordChar_of_isDecimalDigit {c : Char} (h : isDecimalDigit c = true) :
    isWordChar c = true := by
  simp [isWordChar, h]

/-- The characters of words of ASCII are characters of words. -/
theorem isWordChar_of_isAsciiWord {c : Char} (h : isAsciiWord c = true) :
    isWordChar c = true := by
  have htable : ∀ n < 128,
      isAsciiWord (Char.ofNat n) = true → isWordChar (Char.ofNat n) = true := by
    decide +kernel
  have hlt : c.toNat < 128 := by
    have hbound (high : Char) (hhigh : high.toNat < 128) (hle : c ≤ high) : c.toNat < 128 :=
      Nat.lt_of_le_of_lt (UInt32.le_iff_toNat_le.mp hle) hhigh
    simp only [isAsciiWord, isCapital, Bool.or_eq_true, Bool.and_eq_true, decide_eq_true_eq,
      beq_iff_eq] at h
    rcases h with ((h | h) | h) | h
    · exact hbound 'Z' (by decide) h.2
    · exact hbound 'z' (by decide) h.2
    · exact hbound '9' (by decide) h.2
    · subst h
      decide
  have hc := htable c.toNat hlt
  rw [Char.ofNat_toNat] at hc
  exact hc h

/-- Inside a run of characters of words no word begins or ends. -/
theorem edgeBehind_of_lt_runLength {has : Char → Bool}
    (hword : ∀ c, has c = true → isWordChar c = true) (before : Option Char) {text : Text} {n : Nat}
    (hpos : 0 < n) (hn : n < text.runLength has) : edgeBehind before text n = false := by
  obtain ⟨c, hc, hhas⟩ := Text.has_of_lt_runLength hn
  obtain ⟨d, hd, hhas'⟩ := Text.has_of_lt_runLength (Nat.lt_of_le_of_lt (Nat.sub_le n 1) hn)
  have hlast : (text.take n).getLast? = some d := by
    rw [List.getLast?_take, if_neg (by omega), hd]
    rfl
  unfold edgeBehind isEdge
  rw [hlast, List.head?_drop, hc]
  simp [hword _ hhas, hword _ hhas']

theorem fractionLength_of_point {text : Text} (h : text.head? = some '.') :
    fractionLength text = Text.runLength isDecimalDigit (text.drop 1) := by
  cases text with
  | nil => cases h
  | cons c text =>
    obtain rfl := Option.some.inj h
    rfl

theorem fractionLength_of_not_point {text : Text} (h : text.head? ≠ some '.') :
    fractionLength text = 0 := by
  unfold fractionLength
  split
  · exact absurd rfl h
  · rfl

/-- A comment that is not closed takes all characters. -/
theorem blockLength_of_not_infix {text : Text} (h : ¬ ['*', '/'] <:+: text) :
    blockLength text = text.length := by
  fun_induction blockLength text with
  | case1 => rfl
  | case2 rest =>
    exact absurd ⟨[], rest, rfl⟩ h
  | case3 c rest hc ih =>
    rw [ih fun hinfix => h (List.infix_cons hinfix)]
    rfl

end Lexer

namespace Node

variable {α : Type}

/-- Rounds that may stop anywhere take the whole run. -/
theorem run_many (set : CharSet) (place : Place) :
    (many set).run place some = some (place.skip (place.rest.runLength set.has)) := by
  rw [many, run_rounds (takesOne_char set) rfl]
  simp [order, List.range_succ]

/-- A run up to a character that does not belong to its class is a whole run. -/
theorem run_many_only {set : CharSet} {c : Char} (hc : set.has c = false) (place : Place)
    (accept : Place → Option α) :
    ((many set).run place fun next => (char (.only c)).run next accept) =
      if (place.rest.drop (place.rest.runLength set.has)).head? = some c then
        accept (place.skip (place.rest.runLength set.has + 1))
      else none := by
  have hmany := run_rounds_whole (takesOne_char set) rfl place
    (fun next => (char (.only c)).run next accept) (by
      intro n hn
      obtain ⟨d, hd, hhas⟩ := Text.has_of_lt_runLength hn
      have hne : d ≠ c := by
        rintro rfl
        rw [hc] at hhas
        cases hhas
      simp [hd, hne])
  rw [many, hmany, run_only, Place.rest_skip, Place.skip_skip]

/-! ## Characters in quotes -/

/-- A backslash with a character on the same line is taken together. -/
theorem run_escaped (place : Place) (accept : Place → Option α) :
    escaped.run place accept = if escapes place.rest then accept (place.skip 2) else none := by
  unfold escaped
  simp only [run_sequence_cons, run_char, run_sequence_nil, Place.skip_skip, Place.rest_skip]
  cases hrest : place.rest with
  | nil => rfl
  | cons c rest =>
    cases rest with
    | nil => simp [escapes]
    | cons d rest =>
      by_cases hc : c = '\\'
      · simp [escapes, hc, CharSet.has]
      · simp [escapes, hc]

/-- The pattern of characters follows the rule for characters. -/
theorem run_character (place : Place) :
    character.run place some = (character? place.rest).map place.skip := by
  unfold character
  simp only [run_choice_cons, run_choice_nil, run_sequence_cons, run_sequence_nil, run_escaped]
  rw [run_only, run_many_only (by simp [has_neither]), has_neither]
  cases hrest : place.rest with
  | nil => rfl
  | cons c rest =>
    by_cases hc : c = '\''
    · subst hc
      simp only [Place.rest_skip, hrest, List.drop_succ_cons, List.drop_zero, run_only,
        Place.skip_skip, List.head?_cons]
      unfold character?
      by_cases hescapes : escapes rest = true
      · obtain ⟨hrun, hhead⟩ := runLength_of_escapes hescapes (a := '\'')
        by_cases hclosed : rest[2]? = some '\''
        · simp [hescapes, hclosed]
        · simp [hescapes, hrun, hhead, hclosed]
      · by_cases hclosed : rest[Text.runLength (fun c => c != '\'' && c != '\\') rest]? =
            some '\''
        · have hlength (n : Nat) : 1 + (1 + n) = 2 + n := by omega
          simp [hescapes, hclosed, hlength, Nat.add_comm]
        · simp [hescapes, hclosed]
    · unfold character?
      simp [hc]

/-! ## Words -/

/-- Whether a word begins or ends so many characters further on. -/
theorem satisfies_skip (place : Place) (n : Nat) :
    (place.skip n).satisfies .wordEdge = edgeBehind place.before place.rest n :=
  rfl

/-- Whether a word begins or ends at a place. -/
theorem satisfies_wordEdge (place : Place) :
    place.satisfies .wordEdge = edgeBehind place.before place.rest 0 := by
  rw [← satisfies_skip, Place.skip_zero]

/-- A fraction is taken if it has digits and ends a word. -/
theorem run_fraction (place : Place) :
    ((times (choice [sequence [char (.only '.'), digits]]) 0 (some 1) true).run place fun next =>
      if next.satisfies .wordEdge then some next else none) =
    if 0 < fractionLength place.rest &&
        (place.skip (1 + fractionLength place.rest)).satisfies .wordEdge then
      some (place.skip (1 + fractionLength place.rest))
    else if place.satisfies .wordEdge then some place
    else none := by
  have hdigits := run_rounds_whole_plus (takesOne_char .digits) rfl (place.skip 1)
    (fun next => if next.satisfies .wordEdge then some next else none) (by
      intro n hn hpos
      rw [satisfies_skip,
        edgeBehind_of_lt_runLength (fun c => isWordChar_of_isDecimalDigit) _ hpos hn]
      rfl)
  rw [run_optional]
  simp only [run_choice_cons, run_choice_nil, run_sequence_cons, run_sequence_nil, run_only, digits,
    hdigits]
  have hhas : CharSet.digits.has = isDecimalDigit := rfl
  rw [hhas]
  by_cases hpoint : place.rest.head? = some '.'
  · rw [if_pos hpoint, fractionLength_of_point hpoint]
    simp only [Place.rest_skip, Place.skip_skip]
    by_cases hnone : Text.runLength isDecimalDigit (place.rest.drop 1) = 0
    · simp only [hnone, if_true, Option.orElse_none]
      rfl
    · have hpos : 0 < Text.runLength isDecimalDigit (place.rest.drop 1) := by omega
      simp only [hnone, hpos, if_false, decide_true, Bool.true_and]
      split <;> rfl
  · simp [hpoint, fractionLength_of_not_point hpoint]

/-- The pattern of numbers follows the rule for numbers. -/
theorem run_number (place : Place) :
    number.run place some = (number? place.before place.rest).map place.skip := by
  unfold number number?
  simp only [run_choice_cons, run_choice_nil, run_sequence_cons, run_sequence_nil, run_anchor,
    run_fraction]
  have hdigits := run_rounds_whole_plus (takesOne_char .digits) rfl place
    (fun next => if 0 < fractionLength next.rest &&
        (next.skip (1 + fractionLength next.rest)).satisfies .wordEdge then
      some (next.skip (1 + fractionLength next.rest))
    else if next.satisfies .wordEdge then some next
    else none) (by
      intro n hn hpos
      obtain ⟨d, hd, hhas⟩ := Text.has_of_lt_runLength hn
      have hpoint : (place.rest.drop n).head? ≠ some '.' := by
        rw [List.head?_drop, hd]
        rintro hpoint
        obtain rfl := Option.some.inj hpoint
        revert hhas
        decide +kernel
      rw [satisfies_skip place n,
        edgeBehind_of_lt_runLength (fun c => isWordChar_of_isDecimalDigit) _ hpos hn,
        Place.rest_skip, fractionLength_of_not_point hpoint]
      rfl)
  rw [digits, hdigits, satisfies_wordEdge]
  have hhas : CharSet.digits.has = isDecimalDigit := rfl
  simp only [hhas, Place.rest_skip, Place.skip_skip, satisfies_skip, ← Nat.add_assoc]
  by_cases hedge : edgeBehind place.before place.rest 0 = true
  · by_cases hnone : Text.runLength isDecimalDigit place.rest = 0
    · simp [hedge, hnone]
    · simp [hedge, hnone, apply_ite (Option.map place.skip)]
  · simp [hedge]

/-- A keyword is found where the text begins with it. -/
theorem run_literal (text : Text) (place : Place) (accept : Place → Option α) :
    (literal text).run place accept =
      if text.isPrefixOf place.rest then accept (place.skip text.length) else none := by
  induction text generalizing place with
  | nil => simp [literal]
  | cons c text ih =>
    have hcons : (literal (c :: text)).run place accept =
        (char (.only c)).run place fun next => (literal text).run next accept := rfl
    rw [hcons, run_only]
    simp only [ih]
    cases hrest : place.rest with
    | nil => simp
    | cons d rest =>
      by_cases hd : d = c
      · simp [hd, hrest, Nat.add_comm]
      · simp [hd, Ne.symm hd]

/-- The pattern of keywords follows the rule for keywords. -/
theorem run_keyword (keywords : List Text) (place : Place) :
    (anyKeyword keywords).run place some =
      (keyword? keywords place.before place.rest).map place.skip := by
  unfold anyKeyword keyword?
  simp only [run_choice_cons, run_choice_nil, run_sequence_cons, run_sequence_nil, run_anchor,
    run_choice_map, run_literal, satisfies_skip]
  rw [satisfies_wordEdge, List.find?_eq_findSome?_guard, List.map_findSome?, List.map_findSome?]
  by_cases hedge : edgeBehind place.before place.rest 0 = true
  · rw [if_pos hedge, Option.orElse_eq_or, Option.or_none]
    congr 1
    funext keyword
    by_cases hprefix : keyword.isPrefixOf place.rest = true
    · by_cases hend : edgeBehind place.before place.rest keyword.length = true
      · simp [Option.guard, hedge, hprefix, hend]
      · simp [Option.guard, hedge, hprefix, hend]
    · simp [Option.guard, hprefix]
  · have hnone : keywords.findSome? (fun _ => (none : Option Place)) = none := by
      simp
    simpa [hedge, Option.guard, Function.comp_def] using hnone.symm

/-- The pattern of names of types follows the rule for them. -/
theorem run_typeName (place : Place) :
    typeName.run place some = (typeName? place.before place.rest).map place.skip := by
  unfold typeName typeName?
  simp only [run_choice_cons, run_choice_nil, run_sequence_cons, run_sequence_nil, run_anchor,
    run_char]
  rw [satisfies_wordEdge]
  have hcapital : (CharSet.union .nothing (.span 'A' 'Z')).has = isCapital := rfl
  rw [hcapital]
  cases hrest : place.rest with
  | nil => simp
  | cons c rest =>
    by_cases hc : isCapital c = true
    · have hlength : Text.runLength isAsciiWord (c :: rest) = Text.runLength isAsciiWord rest + 1 :=
        Text.runLength_cons_of_pos (by simp [isAsciiWord, hc])
      have hwhole := run_rounds_whole (takesOne_char .asciiWord) rfl (place.skip 1)
        (fun next => if next.satisfies .wordEdge then some next else none) (by
          intro n hn
          rw [has_asciiWord, Place.rest_skip, hrest] at hn
          rw [Place.skip_skip, satisfies_skip, hrest,
            edgeBehind_of_lt_runLength (fun c => isWordChar_of_isAsciiWord) _ (by omega)
              (n := 1 + n) (by rw [hlength]; exact Nat.add_comm 1 n ▸ Nat.succ_lt_succ hn)]
          rfl)
      rw [many, hwhole, has_asciiWord]
      simp [hc, hrest, satisfies_skip, Nat.add_comm]
      by_cases hedge : edgeBehind place.before (c :: rest) 0 = true
      · simp [hedge]
      · simp [hedge]
    · simp [hc]

/-! ## Strings -/

/-- What follows the quote that opens a string. -/
def stringEnd : Node :=
  .sequence [.times (.choice [escaped, .sequence [.char (.neither '"' '\\')]]) 0 none true,
    .char (.only '"')]

/-- A string goes on behind an escape or behind another character, or ends with a quote. -/
theorem run_stringEnd_step (place : Place) :
    stringEnd.run place some =
      ((if escapes place.rest then stringEnd.run (place.skip 2) some else none).or
        (if place.rest.head?.any (fun c => c != '"' && c != '\\') then
          stringEnd.run (place.skip 1) some else none)).or
      (if place.rest.head? = some '"' then some (place.skip 1) else none) := by
  have hstep (accept : Place → Option Place) :
      (times (.choice [escaped, .sequence [.char (.neither '"' '\\')]]) 0 none true).run place
          accept = _ :=
    run_star rfl true place accept
  simp only [run_choice_cons, run_choice_nil, run_sequence_cons, run_sequence_nil, run_escaped,
    run_char, has_neither, Matcher.prefer, if_true, Option.orElse_eq_or, Option.or_none] at hstep
  rw [← run_only]
  exact hstep _

/-- A string ends with the quote that closes it. -/
theorem run_stringEnd (place : Place) :
    stringEnd.run place some = (closingQuote? place.rest).map place.skip := by
  induction hrest : place.rest using closingQuote?.induct generalizing place with
  | case1 =>
    rw [run_stringEnd_step, hrest]
    rfl
  | case2 rest =>
    rw [run_stringEnd_step, hrest]
    simp [closingQuote?, escapes]
  | case3 c rest hc ih =>
    rw [run_stringEnd_step, hrest, ih (place.skip 2) (by simp [hrest])]
    simp [closingQuote?, escapes, hc, Function.comp_def, Place.skip_after]
  | case4 rest =>
    rw [run_stringEnd_step, hrest]
    simp [closingQuote?, escapes]
  | case5 rest hshape =>
    rw [run_stringEnd_step, hrest]
    cases rest with
    | nil => rfl
    | cons c rest => exact absurd rfl (hshape c rest rfl)
  | case6 c rest hshape hquote hback ih =>
    rw [run_stringEnd_step, hrest, ih (place.skip 1) (by simp [hrest])]
    simp [closingQuote?, escapes, Function.comp_def, hback, hquote, Place.skip_after]

/-- The pattern of strings follows the rule for strings. -/
theorem run_string (place : Place) :
    string.run place some = (string? place.rest).map place.skip := by
  have hrun : string.run place some =
      (((char (.only '"')).run place fun next => stringEnd.run next some).orElse
        fun _ => none) := rfl
  rw [hrun, run_only]
  simp only [run_stringEnd]
  cases hrest : place.rest with
  | nil => rfl
  | cons c rest =>
    by_cases hc : c = '"'
    · subst hc
      simp [hrest, string?, Function.comp_def, Place.skip_after]
    · unfold string?
      simp [hc]

/-! ## Comments -/

/-- What follows a slash and a star in a comment that is closed. -/
def closedEnd : Node :=
  .sequence [.times (.char .every) 0 none false, .char (.only '*'), .char (.only '/')]

/-- A comment is closed here, or behind the next character. -/
theorem run_closedEnd_step (place : Place) :
    closedEnd.run place some =
      (if ['*', '/'].isPrefixOf place.rest then some (place.skip 2) else none).or
        (if !place.rest.isEmpty then closedEnd.run (place.skip 1) some else none) := by
  have hstep (accept : Place → Option Place) :
      (times (.char .every) 0 none false).run place accept = _ :=
    run_star rfl false place accept
  have hsome : place.rest.head?.any (fun _ => true) = !place.rest.isEmpty := by
    cases place.rest <;> rfl
  simp only [run_char, has_every, hsome, Matcher.prefer, Option.orElse_eq_or] at hstep
  have hliteral := run_literal ['*', '/'] place (some : Place → Option Place)
  have hlength : ['*', '/'].length = 2 := rfl
  rw [hlength] at hliteral
  rw [← hliteral]
  exact hstep _

/-- A comment that is closed ends behind the first star with a slash. -/
theorem run_closedEnd (place : Place) :
    closedEnd.run place some =
      if ['*', '/'] <:+: place.rest then some (place.skip (blockLength place.rest)) else none := by
  induction hrest : place.rest using blockLength.induct generalizing place with
  | case1 =>
    rw [run_closedEnd_step, hrest]
    rfl
  | case2 rest =>
    rw [run_closedEnd_step, hrest]
    simp [blockLength, List.infix_cons_iff]
  | case3 c rest hc ih =>
    rw [run_closedEnd_step, hrest, ih (place.skip 1) (by simp [hrest])]
    have hshape : ¬ ['*', '/'] <+: c :: rest := by
      rintro ⟨more, hmore⟩
      obtain ⟨rfl, rfl⟩ := List.cons.inj hmore
      exact hc more rfl rfl
    simp [blockLength, List.infix_cons_iff, hshape, Nat.add_comm]

/-- A comment that is left open takes all characters. -/
theorem run_open (place : Place) :
    ((many .every).run place fun next => if next.satisfies .textStop then some next else none) =
      some (place.skip place.rest.length) := by
  have hlength : Text.runLength CharSet.every.has place.rest = place.rest.length := by
    rw [has_every, Text.runLength, List.takeWhile_eq_self_iff.mpr fun _ _ => rfl]
  have hstop (n : Nat) :
      (place.skip n).satisfies .textStop = (place.rest.drop n).head?.isNone := rfl
  rw [many, run_rounds_whole (takesOne_char .every) rfl]
  · rw [hlength, hstop]
    simp
  · intro n hn
    rw [hlength] at hn
    rw [hstop]
    simp [hn]

/-- The pattern of comments follows the rule for comments. -/
theorem run_comment (place : Place) :
    comment.run place some = (comment? place.rest).map place.skip := by
  have hrun : comment.run place some =
      ((literal ['/', '*']).run place fun next => closedEnd.run next some).or
        (((literal ['/', '*']).run place fun next =>
            (many .every).run next fun last =>
              if last.satisfies .textStop then some last else none).or
          ((literal ['/', '/']).run place fun next =>
            (many (.complement (.only '\n'))).run next some)) := by
    have hchoice : comment.run place some =
        ((literal ['/', '*']).run place fun next => closedEnd.run next some).orElse fun _ =>
          ((literal ['/', '*']).run place fun next =>
              (many .every).run next fun last =>
                if last.satisfies .textStop then some last else none).orElse fun _ =>
            ((literal ['/', '/']).run place fun next =>
              (many (.complement (.only '\n'))).run next some).orElse fun _ => none := rfl
    rw [hchoice]
    simp only [Option.orElse_eq_or, Option.or_none]
  rw [hrun]
  simp only [run_literal, run_closedEnd, run_open, run_many]
  have hnotBreak : (CharSet.complement (.only '\n')).has = (· != '\n') := by
    funext c
    simp [CharSet.has, bne, Bool.beq_eq_decide_eq]
  rw [hnotBreak]
  generalize htext : place.rest = text
  fun_cases comment? text with
  | case1 rest =>
    by_cases hinfix : ['*', '/'] <:+: rest
    · simp [htext, hinfix, Nat.add_comm]
    · simp [htext, hinfix, blockLength_of_not_infix hinfix, Nat.add_comm]
  | case2 rest =>
    simp [htext, Nat.add_comm]
  | case3 _ hblock hline =>
    have hnotBlock : ¬ ['/', '*'] <+: text := by
      rintro ⟨rest, rfl⟩
      exact hblock rest rfl
    have hnotLine : ¬ ['/', '/'] <+: text := by
      rintro ⟨rest, rfl⟩
      exact hline rest rfl
    simp [hnotBlock, hnotLine]

/-! ## All kinds -/

/-- The pattern of every kind takes the characters that its rule takes. -/
theorem run_forKind (keywords : List Text) (kind : TokenKind) (place : Place) :
    (forKind keywords kind).run place some =
      (length? keywords place.before place.rest kind).map place.skip := by
  cases kind with
  | character => exact run_character place
  | number => exact run_number place
  | keyword => exact run_keyword keywords place
  | typeName => exact run_typeName place
  | string => exact run_string place
  | comment => exact run_comment place

end Node

end ScratchEditor

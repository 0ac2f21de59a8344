import ScratchEditor.Pattern.Parser

/-!
# Reading with more text behind

A pattern that stands between the brackets of a group is read as it is read alone:
what a reader makes of a text, it also makes of the text with a closing bracket and
more behind it.  There is one exception.  Where comments do not count, a comment at
the end of the text takes the bracket in.

Main definitions:

- `Continues`: a reader makes the same of a text that goes on with a closing bracket,
  or it takes that bracket in at the end of the text.

Main results:

- `continues_readSkip` and `skip_append`: what does not count.
- `continues_readEscape`: what stands behind a backslash.
-/

namespace ScratchEditor

/-- What is read of a text, and what follows it. -/
abbrev PartReader (α : Type) :=
  Text → Except PatternError (α × Text)

/--
A reader leaves no more than it was given, and makes the same of the text when it goes
on with a closing bracket; or it reads to the end, and takes in the bracket as well.
-/
def Continues {α : Type} (read : PartReader α) : Prop :=
  ∀ text value rest, read text = .ok (value, rest) →
    rest.length ≤ text.length ∧
    ((∀ more, read (text ++ ')' :: more) = .ok (value, rest ++ ')' :: more)) ∨
      (rest = [] ∧ read (text ++ [')']) = .ok (value, [])))

namespace Continues

variable {α β : Type} {read : PartReader α}

/-- What does not reach the end of the text does not take in the bracket. -/
theorem append (hread : Continues read) {text rest : Text} {value : α}
    (h : read text = .ok (value, rest)) (hrest : rest ≠ []) (more : Text) :
    read (text ++ ')' :: more) = .ok (value, rest ++ ')' :: more) := by
  rcases (hread text value rest h).2 with hclean | ⟨hnil, _⟩
  · exact hclean more
  · exact absurd hnil hrest

theorem length_le (hread : Continues read) {text rest : Text} {value : α}
    (h : read text = .ok (value, rest)) : rest.length ≤ text.length :=
  (hread text value rest h).1

/-- One reader after the other. -/
theorem bind (hread : Continues read) {next : α → PartReader β} (hnext : ∀ x, Continues (next x)) :
    Continues fun text => read text >>= fun part => next part.1 part.2 := by
  intro text value rest h
  cases hfirst : read text with
  | error cause =>
    simp only [hfirst] at h
    cases h
  | ok part =>
    obtain ⟨x, middle⟩ := part
    simp only [hfirst] at h
    have hsecond : next x middle = .ok (value, rest) := h
    obtain ⟨hmiddle, hfirst'⟩ := hread text x middle hfirst
    obtain ⟨hrest, hsecond'⟩ := hnext x middle value rest hsecond
    refine ⟨Nat.le_trans hrest hmiddle, ?_⟩
    rcases hfirst' with hclean | ⟨rfl, htaken⟩
    · rcases hsecond' with hclean' | ⟨hnil, htaken'⟩
      · left
        intro more
        simp only [hclean more]
        exact hclean' more
      · right
        refine ⟨hnil, ?_⟩
        simp only [hclean []]
        exact htaken'
    · right
      have hnil : rest = [] := List.eq_nil_of_length_eq_zero (Nat.le_zero.mp hrest)
      refine ⟨hnil, ?_⟩
      simp only [htaken]
      rw [hnil] at hsecond
      exact hsecond

/-- A reader with something else made of what it has read. -/
theorem map (hread : Continues read) (f : α → β) :
    Continues fun text => (read text).map fun part => (f part.1, part.2) := by
  intro text value rest h
  cases hfirst : read text with
  | error cause =>
    simp only [hfirst] at h
    cases h
  | ok part =>
    obtain ⟨x, middle⟩ := part
    simp only [hfirst] at h
    obtain ⟨rfl, rfl⟩ := Prod.mk.inj (Except.ok.inj h)
    obtain ⟨hlength, hcases⟩ := hread text x middle hfirst
    refine ⟨hlength, ?_⟩
    rcases hcases with hclean | ⟨hnil, htaken⟩
    · left
      intro more
      simp only [hclean more]
      rfl
    · right
      refine ⟨hnil, ?_⟩
      simp only [htaken]
      rfl

/-- A reader that reads nothing. -/
theorem pure (x : α) : Continues fun text => .ok (x, text) := by
  intro text value rest h
  obtain ⟨rfl, rfl⟩ := Prod.mk.inj (Except.ok.inj h)
  exact ⟨Nat.le_refl _, Or.inl fun _ => rfl⟩

/-- A reader that always fails. -/
theorem error (cause : PatternError) : Continues fun _ => (.error cause : Except _ (α × Text)) := by
  intro text value rest h
  cases h

/-- A reader that needs a character, by what it does after each one. -/
theorem of_cons (hnil : ∀ part, read [] ≠ .ok part)
    (hcons : ∀ c, Continues fun text => read (c :: text)) : Continues read := by
  intro text value rest h
  cases text with
  | nil => exact absurd h (hnil _)
  | cons c text =>
    obtain ⟨hlength, hcases⟩ := hcons c text value rest h
    exact ⟨Nat.le_succ_of_le hlength, hcases⟩

/-- A choice between two readers that does not depend on the text. -/
theorem ite (condition : Prop) [Decidable condition] {other : PartReader α}
    (hread : Continues read) (hother : Continues other) :
    Continues fun text => if condition then read text else other text := by
  by_cases h : condition
  · simp only [if_pos h]
    exact hread
  · simp only [if_neg h]
    exact hother

end Continues

/-! ## What does not count -/

/-- Skipping what does not count, as a reader. -/
def readSkip (flags : Flags) : PartReader Unit :=
  fun text => .ok ((), flags.skip text)

/-- The ways in which one character is skipped, or not. -/
theorem skipIgnored_cons (inComment : Bool) (c : Char) :
    (∃ next, ∀ rest, skipIgnored inComment (c :: rest) = skipIgnored next rest) ∨
    ∀ rest, skipIgnored inComment (c :: rest) = c :: rest := by
  cases inComment with
  | true => exact Or.inl ⟨c != '\n', fun _ => rfl⟩
  | false =>
    by_cases hblank : isBlank c = true
    · exact Or.inl ⟨false, fun _ => by simp [skipIgnored, hblank]⟩
    · by_cases hhash : c = '#'
      · subst hhash
        exact Or.inl ⟨true, fun _ => rfl⟩
      · exact Or.inr fun _ => by simp [skipIgnored, hblank, hhash]

theorem length_skipIgnored_le (inComment : Bool) (text : Text) :
    (skipIgnored inComment text).length ≤ text.length := by
  induction text generalizing inComment with
  | nil => exact Nat.le_refl 0
  | cons c rest ih =>
    rcases skipIgnored_cons inComment c with ⟨next, hskip⟩ | hkeep
    · rw [hskip]
      exact Nat.le_succ_of_le (ih next)
    · exact Nat.le_of_eq (congrArg List.length (hkeep rest))

theorem skipIgnored_append (inComment : Bool) (text : Text) :
    (∀ more, skipIgnored inComment (text ++ ')' :: more) =
      skipIgnored inComment text ++ ')' :: more) ∨
    (skipIgnored inComment text = [] ∧ skipIgnored inComment (text ++ [')']) = []) := by
  induction text generalizing inComment with
  | nil =>
    cases inComment with
    | false => exact Or.inl fun _ => rfl
    | true => exact Or.inr ⟨rfl, rfl⟩
  | cons c rest ih =>
    simp only [List.cons_append]
    rcases skipIgnored_cons inComment c with ⟨next, hskip⟩ | hkeep
    · simp only [hskip]
      exact ih next
    · simp only [hkeep]
      exact Or.inl fun _ => rfl

theorem continues_readSkip (flags : Flags) : Continues (readSkip flags) := by
  intro text value rest h
  obtain ⟨rfl, rfl⟩ := Prod.mk.inj (Except.ok.inj h)
  unfold readSkip Flags.skip
  cases flags.spaced with
  | false =>
    refine ⟨Nat.le_refl _, Or.inl ?_⟩
    intro more
    rfl
  | true =>
    refine ⟨length_skipIgnored_le false text, ?_⟩
    rcases skipIgnored_append false text with hclean | ⟨hnil, htaken⟩
    · left
      intro more
      simp only [if_true, hclean more]
    · right
      refine ⟨hnil, ?_⟩
      simp only [if_true, htaken]

theorem length_skip_le (flags : Flags) (text : Text) : (flags.skip text).length ≤ text.length :=
  (continues_readSkip flags).length_le (rfl : readSkip flags text = .ok ((), flags.skip text))

/-- What counts is found in the same place when the text goes on. -/
theorem skip_append {flags : Flags} {text : Text} (hskip : flags.skip text ≠ []) (more : Text) :
    flags.skip (text ++ ')' :: more) = flags.skip text ++ ')' :: more := by
  have h := (continues_readSkip flags).append
    (rfl : readSkip flags text = .ok ((), flags.skip text)) hskip more
  exact (Prod.mk.inj (Except.ok.inj h)).2

/-- Skipping before a reader. -/
theorem Continues.skip {α : Type} {read : PartReader α} (hread : Continues read) (flags : Flags) :
    Continues fun text => read (flags.skip text) :=
  (continues_readSkip flags).bind fun _ => hread

/-! ## Escapes -/

/-- One digit, and then as many as are left. -/
theorem continues_readHexDigits_cons {flags : Flags} {count : Nat}
    (hread : ∀ value, Continues (readHexDigits flags value count)) (value : Nat) (c : Char) :
    Continues fun text => readHexDigits flags value (count + 1) (c :: text) := by
  cases hdigit : hexValue? c with
  | none =>
    have heq : (fun text => readHexDigits flags value (count + 1) (c :: text)) =
        fun _ => .error .badEscape := by
      funext text
      rw [readHexDigits, hdigit]
    rw [heq]
    exact Continues.error _
  | some digit =>
    have heq : (fun text => readHexDigits flags value (count + 1) (c :: text)) =
        fun text => readHexDigits flags (value * 16 + digit) count (flags.skip text) := by
      funext text
      rw [readHexDigits, hdigit]
    rw [heq]
    exact (hread _).skip flags

theorem continues_readHexDigits (flags : Flags) (value count : Nat) :
    Continues (readHexDigits flags value count) := by
  induction count generalizing value with
  | zero => exact Continues.pure value
  | succ count ih =>
    exact Continues.of_cons (fun part h => by cases h) (continues_readHexDigits_cons ih value)

/-- A character between braces ends the digits or is one more of them, whatever stands behind. -/
theorem readHexBraces_cases {flags : Flags} {fuel : Nat} {digits : List Nat} {text rest : Text}
    {code : Nat} (h : readHexBraces flags fuel digits text = .ok (code, rest)) :
    ∃ n c behind, fuel = n + 1 ∧ text = c :: behind ∧
      ((rest = flags.skip behind ∧ ∀ n' behind',
        readHexBraces flags (n' + 1) digits (c :: behind') = .ok (code, flags.skip behind')) ∨
      ∃ digits', readHexBraces flags n digits' (flags.skip behind) = .ok (code, rest) ∧
        ∀ n' behind', readHexBraces flags (n' + 1) digits (c :: behind') =
          readHexBraces flags n' digits' (flags.skip behind')) := by
  cases fuel with
  | zero => cases h
  | succ n =>
    cases text with
    | nil => cases h
    | cons c behind =>
      refine ⟨n, c, behind, rfl, rfl, ?_⟩
      simp only [readHexBraces] at h ⊢
      by_cases hbrace : c = '}'
      · rw [if_pos hbrace] at h
        by_cases hempty : digits.isEmpty = true
        · rw [if_pos hempty] at h
          cases h
        · rw [if_neg hempty] at h
          obtain ⟨rfl, rfl⟩ := Prod.mk.inj (Except.ok.inj h)
          exact Or.inl ⟨rfl, fun _ _ => by rw [if_pos hbrace, if_neg hempty]⟩
      · rw [if_neg hbrace] at h
        cases hdigit : hexValue? c with
        | none =>
          rw [hdigit] at h
          cases h
        | some digit =>
          rw [hdigit] at h
          exact Or.inr ⟨_, h, fun _ _ => if_neg hbrace⟩

/-- Digits between braces are read in the same way with more fuel. -/
theorem readHexBraces_append {flags : Flags} {fuel : Nat} {digits : List Nat} {text rest : Text}
    {code : Nat} (h : readHexBraces flags fuel digits text = .ok (code, rest)) :
    rest.length ≤ text.length ∧
    ((∀ more fuel', fuel ≤ fuel' →
      readHexBraces flags fuel' digits (text ++ ')' :: more) = .ok (code, rest ++ ')' :: more)) ∨
    (rest = [] ∧ ∀ fuel', fuel ≤ fuel' →
      readHexBraces flags fuel' digits (text ++ [')']) = .ok (code, []))) := by
  induction fuel generalizing digits text with
  | zero => cases h
  | succ fuel ih =>
    obtain ⟨n, c, text, hfuel, rfl, hcases⟩ := readHexBraces_cases h
    obtain rfl := Nat.succ.inj hfuel
    have hmore {fuel' : Nat} (hle : fuel + 1 ≤ fuel') : ∃ n', fuel' = n' + 1 ∧ fuel ≤ n' :=
      ⟨fuel' - 1, by omega, by omega⟩
    rcases hcases with ⟨rfl, hread⟩ | ⟨digits', hbehind, hread⟩
    · obtain ⟨hlength, hskip⟩ := continues_readSkip flags text () _ rfl
      refine ⟨Nat.le_succ_of_le hlength, hskip.imp ?_ ?_⟩
      · intro hclean more fuel' hle
        obtain ⟨n', rfl, -⟩ := hmore hle
        rw [List.cons_append, hread, (Prod.mk.inj (Except.ok.inj (hclean more))).2]
      · rintro ⟨hnil, htaken⟩
        refine ⟨hnil, fun fuel' hle => ?_⟩
        obtain ⟨n', rfl, -⟩ := hmore hle
        rw [List.cons_append, hread, (Prod.mk.inj (Except.ok.inj htaken)).2]
    · have hskip : flags.skip text ≠ [] := by
        intro hnil
        rw [hnil] at hbehind
        cases fuel <;> cases hbehind
      obtain ⟨hlength, hih⟩ := ih hbehind
      refine ⟨Nat.le_succ_of_le (Nat.le_trans hlength (length_skip_le flags text)),
        hih.imp ?_ ?_⟩
      · intro hclean more fuel' hle
        obtain ⟨n', rfl, hle'⟩ := hmore hle
        rw [List.cons_append, hread, skip_append hskip]
        exact hclean more n' hle'
      · rintro ⟨hnil, htaken⟩
        refine ⟨hnil, fun fuel' hle => ?_⟩
        obtain ⟨n', rfl, hle'⟩ := hmore hle
        rw [List.cons_append, hread, skip_append hskip]
        exact htaken n' hle'

/-- The digits of a code point, between braces or not. -/
def readCodeDigits (flags : Flags) (count : Nat) : PartReader Nat
  | '{' :: rest => readHexBraces flags (rest.length + 1) [] (flags.skip rest)
  | rest => readHexDigits flags 0 count rest

theorem continues_readCodeDigits (flags : Flags) (count : Nat) :
    Continues (readCodeDigits flags (count + 1)) := by
  refine Continues.of_cons (fun part h => by cases h) ?_
  intro c
  by_cases hbrace : c = '{'
  · subst hbrace
    intro text value rest h
    have hread : ∀ text, readCodeDigits flags (count + 1) ('{' :: text) =
        readHexBraces flags (text.length + 1) [] (flags.skip text) := fun _ => rfl
    simp only [hread] at h ⊢
    have hskip : flags.skip text ≠ [] := by
      intro hnil
      rw [hnil] at h
      cases h
    obtain ⟨hlength, hcases⟩ := readHexBraces_append h
    refine ⟨Nat.le_trans hlength (length_skip_le flags text), ?_⟩
    have hfuel : ∀ more, text.length + 1 ≤ (text ++ ')' :: more).length + 1 := by
      intro more
      rw [List.length_append]
      omega
    rcases hcases with hclean | ⟨hnil, htaken⟩
    · left
      intro more
      rw [skip_append hskip, hclean more _ (hfuel more)]
    · right
      refine ⟨hnil, ?_⟩
      rw [skip_append hskip, htaken _ (hfuel [])]
  · have hread : (fun text => readCodeDigits flags (count + 1) (c :: text)) =
        fun text => readHexDigits flags 0 (count + 1) (c :: text) := by
      funext text
      unfold readCodeDigits
      split
      · rename_i heq
        exact absurd (List.cons.inj heq).1 hbrace
      · rfl
    rw [hread]
    exact continues_readHexDigits_cons (fun value => continues_readHexDigits flags value count) 0 c

/-- The character of a code point that was read. -/
def codeAtom (code : Nat) : PartReader Atom :=
  fun text =>
    match charOfCode? code with
    | some c => .ok (.literal c, text)
    | none => .error .badEscape

theorem readCodePoint_eq (flags : Flags) (count : Nat) :
    readCodePoint flags count = fun text =>
      readCodeDigits flags count (flags.skip text) >>= fun part => codeAtom part.1 part.2 := by
  funext text
  unfold readCodePoint
  cases flags.skip text with
  | nil => rfl
  | cons c rest =>
    by_cases hbrace : c = '{'
    · subst hbrace
      rfl
    · have hdigits : readCodeDigits flags count (c :: rest) =
          readHexDigits flags 0 count (c :: rest) := by
        unfold readCodeDigits
        split
        · rename_i heq
          exact absurd (List.cons.inj heq).1 hbrace
        · rfl
      rw [hdigits]
      split
      · rename_i heq
        exact absurd (List.cons.inj heq).1 hbrace
      · rfl

theorem continues_readCodePoint (flags : Flags) (count : Nat) :
    Continues (readCodePoint flags (count + 1)) := by
  have hatom (code : Nat) : Continues (codeAtom code) := by
    unfold codeAtom
    cases charOfCode? code with
    | none => exact Continues.error _
    | some c => exact Continues.pure _
  rw [readCodePoint_eq]
  exact ((continues_readCodeDigits flags count).skip flags).bind hatom

theorem continues_readEscape (flags : Flags) : Continues (readEscape flags) := by
  refine Continues.of_cons (fun part h => by cases h) ?_
  intro c
  unfold readEscape
  have hcode (count : Nat) := continues_readCodePoint flags count
  refine Continues.ite _ (Continues.error _) ?_
  refine Continues.ite _ (hcode 1) ?_
  refine Continues.ite _ (hcode 3) ?_
  refine Continues.ite _ (hcode 7) ?_
  repeat' refine Continues.ite _ (Continues.pure _) ?_
  exact Continues.error _

end ScratchEditor

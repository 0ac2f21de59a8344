import ScratchEditor.Proofs.Pattern.Continuing

/-!
# Bounds, flags and names with more text behind

The bounds of a repetition end with a brace, flags with a colon or a bracket, and
the name of a group with an angle bracket.  What stands behind them is of no matter.

Main results:

- `continues_readBounds`, `continues_greediness`: repetitions.
- `readName_append`, `readFlags_append`: openings of groups.
-/

namespace ScratchEditor

/-! ## Bounds of repetitions -/

/-- Where characters of a kind end before the end of the text, more text changes nothing. -/
theorem dropWhile_append_of_ne_nil {text : Text} {p : Char → Bool} (h : text.dropWhile p ≠ [])
    (more : Text) : (text ++ more).dropWhile p = text.dropWhile p ++ more := by
  rw [List.dropWhile_append]
  cases hempty : (text.dropWhile p).isEmpty with
  | true => exact absurd (List.isEmpty_iff.mp hempty) h
  | false => rfl

theorem takeWhile_append_of_dropWhile_ne_nil {text : Text} {p : Char → Bool}
    (h : text.dropWhile p ≠ []) (more : Text) :
    (text ++ more).takeWhile p = text.takeWhile p := by
  rw [List.takeWhile_append]
  split
  · rename_i hlength
    have hsplit := congrArg List.length (List.takeWhile_append_dropWhile (p := p) (l := text))
    rw [List.length_append, hlength] at hsplit
    exact absurd (List.eq_nil_of_length_eq_zero (by omega)) h
  · rfl

theorem drop_length_takeWhile (text : Text) (p : Char → Bool) :
    text.drop (text.takeWhile p).length = text.dropWhile p := by
  have hsplit := List.takeWhile_append_dropWhile (p := p) (l := text)
  conv => lhs; arg 2; rw [← hsplit]
  rw [List.drop_left]

namespace PatternReader

/-- What follows the digits of a bound and the blanks behind them. -/
def afterBound (flags : Flags) (text : Text) : Text :=
  flags.skip (((text.dropWhile isBlank).dropWhile Char.isDigit).dropWhile isBlank)

theorem readBound_eq (flags : Flags) (text : Text) :
    readBound flags text =
      match readDigits 0 ((text.dropWhile isBlank).takeWhile Char.isDigit) with
      | .ok n =>
        if ((text.dropWhile isBlank).takeWhile Char.isDigit).isEmpty || boundLimit ≤ n then
          .error .badBounds
        else .ok (n, afterBound flags text)
      | .error _ => .error .badBounds := by
  have hafter : afterBound flags text =
      flags.skip (((text.dropWhile isBlank).drop
        ((text.dropWhile isBlank).takeWhile Char.isDigit).length).dropWhile isBlank) := by
    rw [drop_length_takeWhile]
    rfl
  rw [hafter]
  rfl

/-- A bound is a number of digits below the limit, and what follows them. -/
theorem readBound_eq_ok_iff {flags : Flags} {text rest : Text} {n : Nat} :
    readBound flags text = .ok (n, rest) ↔
      readDigits 0 ((text.dropWhile isBlank).takeWhile Char.isDigit) = .ok n ∧
        (((text.dropWhile isBlank).takeWhile Char.isDigit).isEmpty || boundLimit ≤ n) = false ∧
        rest = afterBound flags text := by
  rw [readBound_eq]
  cases readDigits 0 ((text.dropWhile isBlank).takeWhile Char.isDigit) with
  | error cause => simp
  | ok value =>
    dsimp only
    constructor
    · intro h
      split at h
      · cases h
      · rename_i hbounded
        obtain ⟨rfl, rfl⟩ := Prod.mk.inj (Except.ok.inj h)
        exact ⟨rfl, Bool.not_eq_true _ ▸ hbounded, rfl⟩
    · rintro ⟨hvalue, hbounded, rfl⟩
      obtain rfl := Except.ok.inj hvalue
      rw [hbounded]
      rfl

theorem length_afterBound_le (flags : Flags) (text : Text) :
    (afterBound flags text).length ≤ text.length := by
  have hskip := length_skip_le flags
    (((text.dropWhile isBlank).dropWhile Char.isDigit).dropWhile isBlank)
  have hafter := ((List.dropWhile_sublist isBlank).trans
    ((List.dropWhile_sublist Char.isDigit).trans
      (List.dropWhile_sublist (l := text) isBlank))).length_le
  exact Nat.le_trans hskip hafter

/-- Where something follows a bound, its digits and the blanks around them are the same when the
text goes on. -/
theorem afterBound_append {flags : Flags} {text : Text} (hne : afterBound flags text ≠ [])
    (more : Text) :
    afterBound flags (text ++ ')' :: more) = afterBound flags text ++ ')' :: more ∧
      ((text ++ ')' :: more).dropWhile isBlank).takeWhile Char.isDigit =
        (text.dropWhile isBlank).takeWhile Char.isDigit := by
  unfold afterBound at hne ⊢
  have hskip : ((text.dropWhile isBlank).dropWhile Char.isDigit).dropWhile isBlank ≠ [] := by
    intro hnil
    rw [hnil] at hne
    exact hne (List.eq_nil_of_length_eq_zero (Nat.le_zero.mp (length_skip_le flags [])))
  have hdigits : (text.dropWhile isBlank).dropWhile Char.isDigit ≠ [] := by
    intro hnil
    rw [hnil] at hskip
    exact hskip rfl
  have hblanks : text.dropWhile isBlank ≠ [] := by
    intro hnil
    rw [hnil] at hdigits
    exact hdigits rfl
  rw [dropWhile_append_of_ne_nil hblanks, dropWhile_append_of_ne_nil hdigits,
    dropWhile_append_of_ne_nil hskip, skip_append hne,
    takeWhile_append_of_dropWhile_ne_nil hdigits]
  exact ⟨rfl, rfl⟩

/-- A bound behind which there is text is the same when the text goes on. -/
theorem readBound_append {flags : Flags} {text rest : Text} {n : Nat}
    (h : readBound flags text = .ok (n, rest)) :
    rest.length ≤ text.length ∧ (rest ≠ [] → ∀ more,
      readBound flags (text ++ ')' :: more) = .ok (n, rest ++ ')' :: more)) := by
  obtain ⟨hvalue, hbounded, rfl⟩ := readBound_eq_ok_iff.mp h
  refine ⟨length_afterBound_le flags text, ?_⟩
  intro hne more
  obtain ⟨hafter, hdigits⟩ := afterBound_append hne more
  rw [readBound_eq_ok_iff, hdigits, hafter]
  exact ⟨hvalue, hbounded, rfl⟩

/-- One reader after a bound.  The second needs text, so the bound does not reach the end. -/
theorem continues_bound {α : Type} (flags : Flags) {next : Nat → PartReader α}
    (hnext : ∀ n, Continues (next n)) (hnil : ∀ n part, next n [] ≠ .ok part) :
    Continues fun text => readBound flags text >>= fun part => next part.1 part.2 := by
  intro text value rest h
  cases hbound : readBound flags text with
  | error cause =>
    simp only [hbound] at h
    cases h
  | ok part =>
    obtain ⟨n, middle⟩ := part
    simp only [hbound] at h
    have hafter : next n middle = .ok (value, rest) := h
    have hmiddle : middle ≠ [] := by
      intro heq
      rw [heq] at hafter
      exact hnil n _ hafter
    obtain ⟨hlength, happend⟩ := readBound_append hbound
    obtain ⟨hlength', hcases⟩ := hnext n middle value rest hafter
    refine ⟨Nat.le_trans hlength' hlength, ?_⟩
    rcases hcases with hclean | ⟨hempty, htaken⟩
    · left
      intro more
      simp only [happend hmiddle more]
      exact hclean more
    · right
      refine ⟨hempty, ?_⟩
      simp only [happend hmiddle []]
      exact htaken

/-- The brace that closes bounds, and what does not count behind it. -/
def closeBounds {α : Type} (flags : Flags) (value : α) : PartReader α
  | '}' :: rest => .ok (value, flags.skip rest)
  | _ => .error .badBounds

theorem closeBounds_of_ne {α : Type} (flags : Flags) (value : α) {text : Text}
    (h : ∀ rest, text ≠ '}' :: rest) : closeBounds flags value text = .error .badBounds := by
  unfold closeBounds
  split
  · exact absurd rfl (h _)
  · rfl

theorem closeBounds_cons {α : Type} (flags : Flags) (value : α) (c : Char) (rest : Text) :
    closeBounds flags value (c :: rest) =
      if c = '}' then .ok (value, flags.skip rest) else .error .badBounds := by
  by_cases hbrace : c = '}'
  · subst hbrace
    rfl
  · rw [if_neg hbrace]
    exact closeBounds_of_ne flags value fun _ heq => hbrace (List.cons.inj heq).1

theorem continues_closeBounds {α : Type} (flags : Flags) (value : α) :
    Continues (closeBounds flags value) := by
  refine Continues.of_cons (fun part h => by cases h) ?_
  intro c
  simp only [closeBounds_cons]
  exact Continues.ite _ ((Continues.pure value).skip flags) (Continues.error _)

/-- The upper bound, if there is one. -/
def readMost (flags : Flags) (least : Nat) : PartReader (Nat × Option Nat)
  | '}' :: rest => .ok ((least, none), flags.skip rest)
  | text => readBound flags text >>= fun part =>
    if part.1 < least then .error .badBounds else closeBounds flags (least, some part.1) part.2

theorem readMost_of_ne (flags : Flags) (least : Nat) {text : Text}
    (h : ∀ rest, text ≠ '}' :: rest) :
    readMost flags least text = readBound flags text >>= fun part =>
      if part.1 < least then .error .badBounds
      else closeBounds flags (least, some part.1) part.2 := by
  unfold readMost
  split
  · exact absurd rfl (h _)
  · rfl

theorem readMost_cons (flags : Flags) (least : Nat) (c : Char) (rest : Text) :
    readMost flags least (c :: rest) =
      if c = '}' then .ok ((least, none), flags.skip rest)
      else readBound flags (c :: rest) >>= fun part =>
        if part.1 < least then .error .badBounds
        else closeBounds flags (least, some part.1) part.2 := by
  by_cases hbrace : c = '}'
  · subst hbrace
    rfl
  · rw [if_neg hbrace]
    exact readMost_of_ne flags least fun _ heq => hbrace (List.cons.inj heq).1

theorem continues_readMost (flags : Flags) (least : Nat) : Continues (readMost flags least) := by
  intro text value rest h
  cases text with
  | nil => cases h
  | cons c text =>
    simp only [List.cons_append, readMost_cons] at h ⊢
    by_cases hbrace : c = '}'
    · simp only [if_pos hbrace] at h ⊢
      obtain ⟨hlength, hcases⟩ := (Continues.pure (least, none)).skip flags text value rest h
      exact ⟨Nat.le_succ_of_le hlength, hcases⟩
    · simp only [if_neg hbrace] at h ⊢
      have hmost (n : Nat) : Continues fun text =>
          if n < least then .error .badBounds else closeBounds flags (least, some n) text :=
        Continues.ite _ (Continues.error _) (continues_closeBounds flags (least, some n))
      refine continues_bound flags hmost ?_ (c :: text) value rest h
      intro n part heq
      split at heq
      · cases heq
      · cases heq

/-- What follows the lower bound. -/
def afterLeast (flags : Flags) (least : Nat) : PartReader (Nat × Option Nat)
  | '}' :: rest => .ok ((least, some least), flags.skip rest)
  | ',' :: rest => readMost flags least (flags.skip rest)
  | _ => .error .badBounds

theorem afterLeast_cons (flags : Flags) (least : Nat) (c : Char) (rest : Text) :
    afterLeast flags least (c :: rest) =
      if c = '}' then .ok ((least, some least), flags.skip rest)
      else if c = ',' then readMost flags least (flags.skip rest)
      else .error .badBounds := by
  by_cases hbrace : c = '}'
  · subst hbrace
    rfl
  · by_cases hcomma : c = ','
    · subst hcomma
      rfl
    · rw [if_neg hbrace, if_neg hcomma]
      unfold afterLeast
      split
      · rename_i heq
        exact absurd (List.cons.inj heq).1 hbrace
      · rename_i heq
        exact absurd (List.cons.inj heq).1 hcomma
      · rfl

theorem continues_afterLeast (flags : Flags) (least : Nat) :
    Continues (afterLeast flags least) := by
  refine Continues.of_cons (fun part h => by cases h) ?_
  intro c
  simp only [afterLeast_cons]
  exact Continues.ite _ ((Continues.pure _).skip flags)
    (Continues.ite _ ((continues_readMost flags least).skip flags) (Continues.error _))

/-- What the reader of bounds makes of the text behind the lower bound. -/
theorem readBounds_eq (flags : Flags) (text : Text) :
    (readBounds flags text).map (fun bounds => ((bounds.1, bounds.2.1), bounds.2.2)) =
      readBound flags (flags.skip text) >>= fun part => afterLeast flags part.1 part.2 := by
  unfold readBounds
  cases readBound flags (flags.skip text) with
  | error cause => rfl
  | ok part =>
    obtain ⟨least, rest⟩ := part
    simp only [bind, Except.bind]
    -- The right side is named, so that only the text of the left side is split.
    generalize hafter : afterLeast flags least rest = result
    split
    · exact hafter
    · rename_i behind
      have hmost : readMost flags least (flags.skip behind) = result := hafter
      split
      · rename_i heq
        rw [heq] at hmost
        exact hmost
      · rename_i hbrace
        rw [readMost_of_ne flags least hbrace] at hmost
        rw [← hmost]
        cases readBound flags (flags.skip behind) with
        | error cause => rfl
        | ok part =>
          obtain ⟨most, behind'⟩ := part
          simp only [bind, Except.bind]
          generalize hclosed : closeBounds flags (least, some most) behind' = closed
          split
          · rw [← hclosed]
            by_cases hlt : most < least
            · simp [Except.map, hlt, throw, throwThe, MonadExceptOf.throw]
            · simp [Except.map, hlt, pure, Except.pure, closeBounds]
          · rename_i hclose
            rw [closeBounds_of_ne flags (least, some most) hclose] at hclosed
            rw [← hclosed, ite_self]
            rfl
    · rename_i hbrace hcomma
      rw [← hafter]
      unfold afterLeast
      split
      · exact absurd rfl (hbrace _)
      · exact absurd rfl (hcomma _)
      · rfl

theorem continues_readBounds (flags : Flags) : Continues fun text =>
    (readBounds flags text).map fun bounds => ((bounds.1, bounds.2.1), bounds.2.2) := by
  simp only [readBounds_eq]
  refine Continues.skip (continues_bound flags (continues_afterLeast flags) ?_) flags
  intro least part heq
  cases heq

theorem greediness_cons (c : Char) (rest : Text) :
    greediness (c :: rest) = if c = '?' then (false, rest) else (true, c :: rest) := by
  by_cases hmark : c = '?'
  · subst hmark
    rfl
  · rw [if_neg hmark]
    unfold greediness
    split
    · rename_i heq
      exact absurd (List.cons.inj heq).1 hmark
    · rfl

/-- The mark behind a repetition, as a reader. -/
theorem continues_greediness : Continues fun text => .ok (greediness text) := by
  intro text value rest h
  have hpair : greediness text = (value, rest) := Except.ok.inj h
  cases text with
  | nil =>
    obtain ⟨rfl, rfl⟩ := Prod.mk.inj hpair
    exact ⟨Nat.le_refl _, Or.inl fun _ => rfl⟩
  | cons c text =>
    simp only [List.cons_append, greediness_cons] at hpair ⊢
    by_cases hmark : c = '?'
    · simp only [if_pos hmark] at hpair ⊢
      obtain ⟨rfl, rfl⟩ := Prod.mk.inj hpair
      exact ⟨Nat.le_succ _, Or.inl fun _ => rfl⟩
    · simp only [if_neg hmark] at hpair ⊢
      obtain ⟨rfl, rfl⟩ := Prod.mk.inj hpair
      exact ⟨Nat.le_refl _, Or.inl fun _ => rfl⟩

/-! ## Names and flags -/

theorem readName_append {first : Bool} {text name rest : Text}
    (h : readName first text = .ok (name, rest)) :
    rest.length ≤ text.length ∧
      ∀ more, readName first (text ++ more) = .ok (name, rest ++ more) := by
  induction text generalizing first name with
  | nil => cases h
  | cons c text ih =>
    simp only [List.cons_append]
    rw [readName] at h
    by_cases hclose : c = '>'
    · rw [if_pos hclose] at h
      cases first with
      | true => cases h
      | false =>
        obtain ⟨rfl, rfl⟩ := Prod.mk.inj (Except.ok.inj h)
        refine ⟨Nat.le_succ _, ?_⟩
        intro more
        rw [readName, if_pos hclose]
        rfl
    · rw [if_neg hclose] at h
      by_cases hname : isNameChar first c = true
      · rw [if_pos hname] at h
        cases hrest : readName false text with
        | error cause =>
          rw [hrest] at h
          cases h
        | ok part =>
          obtain ⟨name', rest'⟩ := part
          rw [hrest] at h
          obtain ⟨rfl, rfl⟩ := Prod.mk.inj (Except.ok.inj h)
          obtain ⟨hlength, happend⟩ := ih hrest
          refine ⟨Nat.le_succ_of_le hlength, ?_⟩
          intro more
          rw [readName, if_neg hclose, if_pos hname, happend more]
          rfl
      · rw [if_neg hname] at h
        cases h

theorem readFlags_append {flags flags' : Flags} {seen seen' : List Char} {encloses : Bool}
    {text rest : Text} (h : readFlags flags seen text = .ok (flags', seen', encloses, rest)) :
    rest.length ≤ text.length ∧
      ∀ more, readFlags flags seen (text ++ more) =
      .ok (flags', seen', encloses, rest ++ more) := by
  induction text generalizing flags seen with
  | nil => cases h
  | cons c text ih =>
    simp only [List.cons_append]
    rw [readFlags] at h
    by_cases hclose : c = ':' ∨ c = ')'
    · rw [if_pos hclose] at h
      by_cases hminus : seen.head? = some '-'
      · rw [if_pos hminus] at h
        cases h
      · rw [if_neg hminus] at h
        cases h
        refine ⟨Nat.le_succ _, ?_⟩
        intro more
        rw [readFlags, if_pos hclose, if_neg hminus]
    · rw [if_neg hclose] at h
      by_cases hseen : seen.contains c = true
      · rw [if_pos hseen] at h
        cases h
      · rw [if_neg hseen] at h
        by_cases hminus : c = '-'
        · rw [if_pos hminus] at h
          obtain ⟨hlength, happend⟩ := ih h
          refine ⟨Nat.le_succ_of_le hlength, ?_⟩
          intro more
          rw [readFlags, if_neg hclose, if_neg hseen, if_pos hminus, happend more]
        · rw [if_neg hminus] at h
          cases hswitch : switchFlag flags c (!seen.contains '-') with
          | error cause =>
            rw [hswitch] at h
            cases h
          | ok switched =>
            rw [hswitch] at h
            obtain ⟨hlength, happend⟩ := ih h
            refine ⟨Nat.le_succ_of_le hlength, ?_⟩
            intro more
            rw [readFlags, if_neg hclose, if_neg hseen, if_neg hminus, hswitch]
            exact happend more

end PatternReader

end ScratchEditor

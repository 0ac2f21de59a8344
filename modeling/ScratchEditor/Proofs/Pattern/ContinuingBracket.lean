import Mathlib.Data.List.TakeWhile
import ScratchEditor.Proofs.Pattern.Continuing

/-!
# Brackets with more text behind

A bracket is read up to its end, so what stands behind it is of no matter.  Nested
brackets are read with fuel; more of it changes nothing.

Main definitions:

- `readPart`: what stands in a bracket between its operators.
- `ReadToEnd`: what is left of a bracket, and that nothing behind it matters.

Main results:

- `readItems_operator` and `readItems_cons`: the items of a bracket one step further.
- `continues_readBracket`: a bracket as a whole.
-/

namespace ScratchEditor

/-! ## Operators and named classes -/

/-- Whether two characters are an operator does not depend on what follows. -/
theorem setOperator?_cons_cons (c d : Char) :
    (∃ operator, ∀ rest, setOperator? (c :: d :: rest) = some (operator, rest)) ∨
    ∀ rest, setOperator? (c :: d :: rest) = none := by
  by_cases hand : c = '&' ∧ d = '&'
  · obtain ⟨rfl, rfl⟩ := hand
    exact Or.inl ⟨.inter, fun _ => rfl⟩
  · by_cases hminus : c = '-' ∧ d = '-'
    · obtain ⟨rfl, rfl⟩ := hminus
      exact Or.inl ⟨.diff, fun _ => rfl⟩
    · by_cases htilde : c = '~' ∧ d = '~'
      · obtain ⟨rfl, rfl⟩ := htilde
        exact Or.inl ⟨.symmDiff, fun _ => rfl⟩
      · right
        intro rest
        unfold setOperator?
        split <;> simp_all

theorem setOperator?_singleton (c : Char) : setOperator? [c] = none := by
  unfold setOperator?
  split <;> simp_all

/-- No operator ends with a closing bracket. -/
theorem setOperator?_cons_close (c : Char) (more : Text) :
    setOperator? (c :: ')' :: more) = none := by
  unfold setOperator?
  split <;> simp_all

theorem setOperator?_some_append {text rest : Text} {operator : SetOperator}
    (h : setOperator? text = some (operator, rest)) (more : Text) :
    rest.length ≤ text.length ∧
      setOperator? (text ++ ')' :: more) = some (operator, rest ++ ')' :: more) := by
  match text with
  | [] => cases h
  | [c] =>
    rw [setOperator?_singleton] at h
    cases h
  | c :: d :: text =>
    rcases setOperator?_cons_cons c d with ⟨operator', hsome⟩ | hnone
    · rw [hsome] at h
      obtain ⟨rfl, rfl⟩ := Prod.mk.inj (Option.some.inj h)
      refine ⟨?_, hsome _⟩
      simp only [List.length_cons]
      omega
    · rw [hnone] at h
      cases h

theorem setOperator?_none_append {text : Text} (h : setOperator? text = none) (more : Text) :
    setOperator? (text ++ ')' :: more) = none := by
  match text with
  | [] =>
    cases more with
    | nil => exact setOperator?_singleton ')'
    | cons c more =>
      rw [List.nil_append]
      unfold setOperator?
      split <;> simp_all
  | [c] => exact setOperator?_cons_close c more
  | c :: d :: text =>
    rcases setOperator?_cons_cons c d with ⟨operator', hsome⟩ | hnone
    · rw [hsome] at h
      cases h
    · exact hnone _

/-- The name of a class and what follows its colon. -/
def classBody? (flags : Flags) (negated : Bool) (text : Text) : Option (CharSet × Text) :=
  match text.drop (text.takeWhile (· != ':')).length with
  | ':' :: ']' :: rest =>
    (CharSet.ofClassName? (text.takeWhile (· != ':'))).map fun set =>
      ((set.foldedIf flags.ignoreCase).complementIf negated, rest)
  | _ => none

theorem namedClass?_cons (flags : Flags) (c : Char) (rest : Text) :
    namedClass? flags (c :: rest) =
      if c = ':' then
        classBody? flags (rest.head? = some '^')
          (if rest.head? = some '^' then rest.drop 1 else rest)
      else none := by
  by_cases hcolon : c = ':'
  · subst hcolon
    rw [if_pos rfl]
    rfl
  · rw [if_neg hcolon]
    unfold namedClass?
    split
    · rename_i heq
      exact absurd (List.cons.inj heq).1 hcolon
    · rfl

/-- A class has no closing bracket in its name. -/
theorem ofClassName?_eq_none {name : Text} (h : ')' ∈ name) : CharSet.ofClassName? name = none := by
  have hne : ∀ known : String, ')' ∉ known.toList → name ≠ known.toList := by
    intro known hknown heq
    rw [heq] at h
    exact hknown h
  unfold CharSet.ofClassName?
  iterate 14 rw [if_neg (hne _ (by decide))]

theorem takeWhile_append_of_mem {text : Text} {p : Char → Bool} {c : Char} (hmem : c ∈ text)
    (hc : p c = false) (more : Text) : (text ++ more).takeWhile p = text.takeWhile p := by
  induction text with
  | nil => cases hmem
  | cons d text ih =>
    rw [List.cons_append, List.takeWhile_cons, List.takeWhile_cons]
    by_cases hd : p d = true
    · rw [if_pos hd, if_pos hd]
      rcases List.mem_cons.mp hmem with rfl | hmem
      · rw [hc] at hd
        cases hd
      · rw [ih hmem]
    · rw [if_neg hd, if_neg hd]

theorem takeWhile_eq_self_of_not_mem {text : Text} (hmem : ':' ∉ text) :
    text.takeWhile (· != ':') = text := by
  rw [List.takeWhile_eq_self_iff]
  intro c hc
  rw [bne_iff_ne]
  rintro rfl
  exact hmem hc

theorem length_takeWhile_le (text : Text) (p : Char → Bool) :
    (text.takeWhile p).length ≤ text.length :=
  (List.takeWhile_sublist p).length_le

/-- The part of a class that follows its name when a colon closes the name. -/
theorem drop_takeWhile_append {text : Text} (hmem : ':' ∈ text) (more : Text) :
    (text ++ more).drop ((text ++ more).takeWhile (· != ':')).length =
      text.drop (text.takeWhile (· != ':')).length ++ more := by
  rw [takeWhile_append_of_mem hmem (by rfl), List.drop_append_of_le_length]
  exact length_takeWhile_le text _

theorem classBody?_some_append {flags : Flags} {negated : Bool} {text rest : Text} {set : CharSet}
    (h : classBody? flags negated text = some (set, rest)) (more : Text) :
    rest.length ≤ text.length ∧
      classBody? flags negated (text ++ ')' :: more) = some (set, rest ++ ')' :: more) := by
  unfold classBody? at h ⊢
  by_cases hmem : ':' ∈ text
  · rw [drop_takeWhile_append hmem, takeWhile_append_of_mem hmem (by rfl)]
    have hlength : (text.drop (text.takeWhile (· != ':')).length).length ≤ text.length := by
      rw [List.length_drop]
      omega
    split at h
    · rename_i body heq
      rw [heq] at hlength ⊢
      obtain ⟨class', hclass, hpair⟩ := Option.map_eq_some_iff.mp h
      obtain ⟨rfl, rfl⟩ := Prod.mk.inj hpair
      simp only [List.cons_append, hclass, Option.map_some, List.length_cons] at hlength ⊢
      exact ⟨by omega, trivial⟩
    · cases h
  · rw [takeWhile_eq_self_of_not_mem hmem, List.drop_length] at h
    cases h

theorem classBody?_none_append {flags : Flags} {negated : Bool} {text : Text}
    (h : classBody? flags negated text = none) (more : Text) :
    classBody? flags negated (text ++ ')' :: more) = none := by
  unfold classBody? at h ⊢
  by_cases hmem : ':' ∈ text
  · rw [drop_takeWhile_append hmem, takeWhile_append_of_mem hmem (by rfl)]
    match htail : text.drop (text.takeWhile (· != ':')).length with
    | [] => rfl
    | [c] =>
      rw [List.singleton_append]
      split
      · rename_i heq
        simp at heq
      · rfl
    | c :: d :: tail =>
      rw [htail] at h
      rw [List.cons_append, List.cons_append]
      split
      · rename_i heq
        obtain ⟨rfl, htail'⟩ := List.cons.inj heq
        obtain ⟨rfl, -⟩ := List.cons.inj htail'
        have hclass := Option.map_eq_none_iff.mp h
        rw [hclass, Option.map_none]
      · rfl
  · have hname : ')' ∈ (text ++ ')' :: more).takeWhile (· != ':') := by
      have hself := takeWhile_eq_self_of_not_mem hmem
      rw [List.takeWhile_append, hself, if_pos rfl, List.mem_append]
      right
      rw [List.takeWhile_cons_of_pos (by decide)]
      exact List.mem_cons_self
    split
    · rw [ofClassName?_eq_none hname, Option.map_none]
    · rfl

theorem namedClass?_some_append {flags : Flags} {text rest : Text} {set : CharSet}
    (h : namedClass? flags text = some (set, rest)) (more : Text) :
    rest.length ≤ text.length ∧
      namedClass? flags (text ++ ')' :: more) = some (set, rest ++ ')' :: more) := by
  cases text with
  | nil => cases h
  | cons c text =>
    rw [List.cons_append]
    rw [namedClass?_cons] at h ⊢
    by_cases hcolon : c = ':'
    · rw [if_pos hcolon] at h ⊢
      cases text with
      | nil => cases h
      | cons d text =>
        rw [List.cons_append, List.head?_cons] at *
        by_cases hnegated : some d = some '^'
        · rw [if_pos hnegated] at h ⊢
          obtain ⟨hlength, happend⟩ := classBody?_some_append h more
          refine ⟨?_, happend⟩
          simp only [List.drop_succ_cons, List.drop_zero, List.length_cons] at hlength ⊢
          omega
        · rw [if_neg hnegated] at h ⊢
          obtain ⟨hlength, happend⟩ := classBody?_some_append h more
          exact ⟨Nat.le_succ_of_le hlength, happend⟩
    · rw [if_neg hcolon] at h
      cases h

theorem namedClass?_none_append {flags : Flags} {text : Text} (h : namedClass? flags text = none)
    (more : Text) : namedClass? flags (text ++ ')' :: more) = none := by
  cases text with
  | nil => rfl
  | cons c text =>
    rw [List.cons_append]
    rw [namedClass?_cons] at h ⊢
    by_cases hcolon : c = ':'
    · rw [if_pos hcolon] at h ⊢
      cases text with
      | nil => exact classBody?_none_append rfl more
      | cons d text =>
        rw [List.cons_append]
        rw [List.head?_cons] at h ⊢
        by_cases hnegated : some d = some '^'
        · rw [if_pos hnegated] at h ⊢
          exact classBody?_none_append h more
        · rw [if_neg hnegated] at h ⊢
          exact classBody?_none_append h more
    · rw [if_neg hcolon]

/-! ## Items and spans -/

theorem readSetItem_cons (flags : Flags) {c : Char} (hescape : c ≠ '\\') (rest : Text) :
    readSetItem flags (c :: rest) = .ok (.literal c, rest) := by
  unfold readSetItem
  split
  · rename_i heq
    cases heq
  · rename_i heq
    exact absurd (List.cons.inj heq).1 hescape
  · rename_i heq
    obtain ⟨rfl, rfl⟩ := List.cons.inj heq
    rfl

theorem continues_readSetItem (flags : Flags) : Continues (readSetItem flags) := by
  refine Continues.of_cons (fun part h => by cases h) ?_
  intro c
  by_cases hescape : c = '\\'
  · subst hescape
    exact continues_readEscape flags
  · simp only [readSetItem_cons flags hescape]
    exact Continues.pure _

theorem opensSpan_cons (flags : Flags) (c : Char) (text : Text) :
    opensSpan flags (c :: text) =
      if c = '-' then
        match flags.skip text with
        | ']' :: _ => none
        | '-' :: _ => none
        | rest => some rest
      else none := by
  by_cases hminus : c = '-'
  · subst hminus
    rfl
  · rw [if_neg hminus]
    unfold opensSpan
    split
    · rename_i heq
      exact absurd (List.cons.inj heq).1 hminus
    · rfl

/-- Whether a hyphen opens a span shows in the characters before the end of the text. -/
theorem opensSpan_append {flags : Flags} {text : Text} (htext : text ≠ [])
    (hspan : opensSpan flags text ≠ some []) (more : Text) :
    opensSpan flags (text ++ ')' :: more) =
      (opensSpan flags text).map fun rest => rest ++ ')' :: more := by
  cases text with
  | nil => exact absurd rfl htext
  | cons c text =>
    rw [List.cons_append]
    rw [opensSpan_cons] at hspan ⊢
    rw [opensSpan_cons]
    by_cases hminus : c = '-'
    · rw [if_pos hminus] at hspan ⊢
      rw [if_pos hminus]
      have hskip : flags.skip text ≠ [] := by
        intro hnil
        rw [hnil] at hspan
        exact hspan rfl
      rw [skip_append hskip]
      match flags.skip text, hskip with
      | d :: rest, _ =>
        rw [List.cons_append]
        by_cases hclose : d = ']'
        · subst hclose
          rfl
        · by_cases hminus' : d = '-'
          · subst hminus'
            rfl
          · split
            · rename_i heq
              exact absurd (List.cons.inj heq).1 hclose
            · rename_i heq
              exact absurd (List.cons.inj heq).1 hminus'
            · split
              · rename_i heq
                exact absurd (List.cons.inj heq).1 hclose
              · rename_i heq
                exact absurd (List.cons.inj heq).1 hminus'
              · rfl
    · rw [if_neg hminus, if_neg hminus]
      rfl

theorem length_opensSpan_le {flags : Flags} {text rest : Text}
    (h : opensSpan flags text = some rest) : rest.length ≤ text.length := by
  cases text with
  | nil => cases h
  | cons c text =>
    rw [opensSpan_cons] at h
    by_cases hminus : c = '-'
    · rw [if_pos hminus] at h
      have hlength := length_skip_le flags text
      split at h
      · cases h
      · cases h
      · obtain rfl := Option.some.inj h
        exact Nat.le_succ_of_le hlength
    · rw [if_neg hminus] at h
      cases h

/-- The span between two items; no text is read for it. -/
def spanBetween (first second : Atom) : PartReader CharSet :=
  fun text => first.toChar >>= fun low => second.toChar >>= fun high =>
    if high < low then .error .badSpan else .ok (.span low high, text)

/-- Two items are the ends of a span or they are not, whatever follows. -/
theorem spanBetween_cases (first second : Atom) :
    (∃ cause, spanBetween first second = fun _ => .error cause) ∨
      ∃ set, spanBetween first second = fun text => .ok (set, text) := by
  unfold spanBetween
  cases first.toChar with
  | error cause => exact Or.inl ⟨cause, rfl⟩
  | ok low =>
    cases second.toChar with
    | error cause => exact Or.inl ⟨cause, rfl⟩
    | ok high =>
      by_cases hlt : high < low
      · exact Or.inl ⟨.badSpan, funext fun _ => if_pos hlt⟩
      · exact Or.inr ⟨.span low high, funext fun _ => if_neg hlt⟩

/-- The second half of a span, with the item before the hyphen. -/
def closeSpan (flags : Flags) (first : Atom) : PartReader CharSet :=
  fun text => readSetItem flags text >>= fun part =>
    first.toChar >>= fun low => part.1.toChar >>= fun high =>
      if high < low then .error .badSpan else .ok (.span low high, part.2)

theorem closeSpan_eq (flags : Flags) (first : Atom) :
    closeSpan flags first = fun text =>
      readSetItem flags text >>= fun part => spanBetween first part.1 part.2 :=
  rfl

theorem continues_spanBetween (first second : Atom) : Continues (spanBetween first second) := by
  rcases spanBetween_cases first second with ⟨cause, heq⟩ | ⟨set, heq⟩
  · rw [heq]
    exact Continues.error cause
  · rw [heq]
    exact Continues.pure set

theorem continues_closeSpan (flags : Flags) (first : Atom) : Continues (closeSpan flags first) := by
  rw [closeSpan_eq]
  exact (continues_readSetItem flags).bind (continues_spanBetween first)

/-- What follows an item: nothing of its own, or the second half of a span. -/
def afterItem (flags : Flags) (first : Atom) (text : Text) : Except PatternError (CharSet × Text) :=
  if text.isEmpty then .error .unclosedBracket
  else
    match opensSpan flags text with
    | none => first.toSet.map fun set => (set, text)
    | some rest => if rest.isEmpty then .error .unclosedBracket else closeSpan flags first rest

/-- Where no span opens, an item is all that is read. -/
theorem afterItem_none_iff {flags : Flags} {text : Text} (htext : text ≠ [])
    (hspan : opensSpan flags text = none) {first : Atom} {set : CharSet} {rest : Text} :
    afterItem flags first text = .ok (set, rest) ↔ first.toSet = .ok set ∧ rest = text := by
  unfold afterItem
  rw [if_neg (mt List.isEmpty_iff.mp htext), hspan]
  dsimp only
  cases first.toSet with
  | error cause => simp [Except.map]
  | ok set' => simp [Except.map, eq_comm]

theorem afterItem_some {flags : Flags} {text rest : Text} (htext : text ≠ [])
    (hspan : opensSpan flags text = some rest) (first : Atom) :
    afterItem flags first text =
      if rest = [] then .error .unclosedBracket else closeSpan flags first rest := by
  unfold afterItem
  rw [if_neg (mt List.isEmpty_iff.mp htext), hspan]
  simp only [List.isEmpty_iff]

theorem readSpan_eq (flags : Flags) : readSpan flags = fun text =>
    readSetItem flags text >>= fun part => afterItem flags part.1 (flags.skip part.2) := by
  funext text
  unfold readSpan afterItem
  cases readSetItem flags text with
  | error cause => rfl
  | ok part =>
    obtain ⟨first, rest⟩ := part
    simp only [bind, Except.bind]
    cases (flags.skip rest).isEmpty with
    | true => rfl
    | false =>
      simp only [pure, Except.pure]
      cases opensSpan flags (flags.skip rest) with
      | none =>
        cases first.toSet with
        | error cause => rfl
        | ok set => rfl
      | some rest' =>
        cases hempty : rest'.isEmpty with
        | true => simp [throw, throwThe, MonadExceptOf.throw, hempty]
        | false =>
          simp only [hempty, closeSpan]
          cases readSetItem flags rest' with
          | error cause => rfl
          | ok part =>
            cases hlow : first.toChar with
            | error cause => simp [bind, Except.bind]
            | ok low =>
              cases hhigh : part.1.toChar with
              | error cause => simp [bind, Except.bind, hhigh]
              | ok high =>
                by_cases hlt : high < low
                · simp [bind, Except.bind, hhigh, hlt, throw, throwThe, MonadExceptOf.throw]
                · simp [bind, Except.bind, hhigh, hlt]

theorem continues_afterItem (flags : Flags) (first : Atom) :
    Continues (afterItem flags first) := by
  intro text value rest h
  have htext : text ≠ [] := by
    rintro rfl
    cases h
  have hmore (more : Text) : text ++ ')' :: more ≠ [] := by simp
  cases hspan : opensSpan flags text with
  | none =>
    have hnone (more : Text) : opensSpan flags (text ++ ')' :: more) = none := by
      rw [opensSpan_append htext (by rw [hspan]; exact fun heq => by cases heq), hspan]
      rfl
    obtain ⟨hset, rfl⟩ := (afterItem_none_iff htext hspan).mp h
    refine ⟨Nat.le_refl _, Or.inl ?_⟩
    intro more
    exact (afterItem_none_iff (hmore more) (hnone more)).mpr ⟨hset, rfl⟩
  | some behind =>
    rw [afterItem_some htext hspan] at h
    by_cases hbehind : behind = []
    · rw [if_pos hbehind] at h
      cases h
    · rw [if_neg hbehind] at h
      have hsome (more : Text) :
          opensSpan flags (text ++ ')' :: more) = some (behind ++ ')' :: more) := by
        have hne : opensSpan flags text ≠ some [] := by
          rw [hspan]
          exact fun heq => hbehind (Option.some.inj heq)
        rw [opensSpan_append htext hne, hspan]
        rfl
      have hread (more : Text) : afterItem flags first (text ++ ')' :: more) =
          closeSpan flags first (behind ++ ')' :: more) := by
        rw [afterItem_some (hmore more) (hsome more), if_neg (by simp)]
      obtain ⟨hlength, hcases⟩ := continues_closeSpan flags first behind value rest h
      refine ⟨Nat.le_trans hlength (length_opensSpan_le hspan), ?_⟩
      rcases hcases with hclean | ⟨hnil, htaken⟩
      · left
        intro more
        rw [hread more, hclean more]
      · right
        refine ⟨hnil, ?_⟩
        rw [hread [], htaken]

theorem continues_readSpan (flags : Flags) : Continues (readSpan flags) := by
  rw [readSpan_eq]
  exact (continues_readSetItem flags).bind fun first => (continues_afterItem flags first).skip flags

/-! ## The beginning of a bracket -/

/-- Whether a bracket is negated, and what follows. -/
def afterNegation (flags : Flags) (text : Text) : Bool × Text :=
  let text := flags.skip text
  if text.head? = some '^' then (true, flags.skip (text.drop 1)) else (false, text)

/-- The characters that stand for themselves at the beginning of a bracket, and what follows. -/
def afterLeading (flags : Flags) (text : Text) : CharSet × Text :=
  let leading := readLeading flags text.length .nothing text
  match leading.1, leading.2 with
  | .nothing, ']' :: rest => (CharSet.only ']', flags.skip rest)
  | _, _ => leading

/-- A bracket in terms of its beginning. -/
theorem readBracket_succ (flags : Flags) (fuel : Nat) (text : Text) :
    readBracket flags (fuel + 1) text =
      (readItems flags fuel none (afterLeading flags (afterNegation flags text).2).1
        (afterLeading flags (afterNegation flags text).2).2).map fun part =>
          ((part.1.foldedIf flags.ignoreCase).complementIf (afterNegation flags text).1,
          part.2) := by
  rw [readBracket]
  unfold afterNegation
  dsimp only
  by_cases hnegated : (flags.skip text).head? = some '^'
  · simp only [hnegated, if_true, decide_true]
    rfl
  · simp only [hnegated, if_false, decide_false]
    rfl

/-- Where the text after the beginning of a bracket goes on, the beginning is the same. -/
theorem readLeading_append {flags : Flags} {fuel : Nat} {set : CharSet} {text : Text}
    (hfuel : text.length ≤ fuel) (hrest : (readLeading flags fuel set text).2 ≠ [])
    (more : Text) {fuel' : Nat} (hfuel' : fuel ≤ fuel') :
    readLeading flags fuel' set (text ++ ')' :: more) =
      ((readLeading flags fuel set text).1,
        (readLeading flags fuel set text).2 ++ ')' :: more) := by
  induction fuel generalizing set text fuel' with
  | zero =>
    have hnil : text = [] := List.eq_nil_of_length_eq_zero (Nat.le_zero.mp hfuel)
    rw [hnil] at hrest
    exact absurd rfl hrest
  | succ fuel ih =>
    obtain ⟨n, rfl⟩ : ∃ n, fuel' = n + 1 := ⟨fuel' - 1, by omega⟩
    cases text with
    | nil => exact absurd rfl hrest
    | cons c text =>
      by_cases hminus : c = '-'
      · subst hminus
        have hread : ∀ n more, readLeading flags (n + 1) set ('-' :: text ++ more) =
            readLeading flags n (.union set (.only '-')) (flags.skip (text ++ more)) :=
          fun _ _ => rfl
        have hself := hread fuel []
        rw [List.append_nil, List.append_nil] at hself
        rw [hself] at hrest ⊢
        have hskip : flags.skip text ≠ [] := by
          intro hnil
          rw [hnil] at hrest
          cases fuel <;> exact hrest rfl
        have hlength := length_skip_le flags text
        rw [List.length_cons] at hfuel
        rw [hread, skip_append hskip]
        exact ih (by omega) hrest (by omega)
      · have hread : ∀ n more, readLeading flags (n + 1) set (c :: text ++ more) =
            (set, c :: text ++ more) := by
          intro n more
          unfold readLeading
          split
          · rename_i heq
            exact absurd (List.cons.inj heq).1 hminus
          · rfl
        have hself := hread fuel []
        rw [List.append_nil] at hself
        rw [hread, hself]

theorem length_readLeading_le (flags : Flags) (fuel : Nat) (set : CharSet) (text : Text) :
    (readLeading flags fuel set text).2.length ≤ text.length := by
  induction fuel generalizing set text with
  | zero => exact Nat.le_refl _
  | succ fuel ih =>
    unfold readLeading
    split
    · rename_i rest
      have hskip := length_skip_le flags rest
      have hrest := ih (.union set (.only '-')) (flags.skip rest)
      rw [List.length_cons]
      omega
    · exact Nat.le_refl _

theorem afterNegation_append {flags : Flags} {text : Text}
    (hrest : (afterNegation flags text).2 ≠ []) (more : Text) :
    afterNegation flags (text ++ ')' :: more) =
      ((afterNegation flags text).1, (afterNegation flags text).2 ++ ')' :: more) := by
  have hskip : flags.skip text ≠ [] := by
    intro hnil
    unfold afterNegation at hrest
    rw [hnil] at hrest
    exact hrest rfl
  unfold afterNegation at hrest ⊢
  rw [skip_append hskip]
  obtain ⟨c, rest, hcons⟩ := List.exists_cons_of_ne_nil hskip
  rw [hcons] at hrest ⊢
  dsimp only at hrest ⊢
  rw [List.cons_append, List.head?_cons, List.head?_cons]
  rw [List.head?_cons] at hrest
  by_cases hnegated : some c = some '^'
  · rw [if_pos hnegated] at hrest
    rw [if_pos hnegated, if_pos hnegated]
    have hskip' : flags.skip rest ≠ [] := hrest
    exact congrArg (Prod.mk true) (skip_append hskip' more)
  · rw [if_neg hnegated, if_neg hnegated]
    rfl

theorem length_afterNegation_le (flags : Flags) (text : Text) :
    (afterNegation flags text).2.length ≤ text.length := by
  have hskip := length_skip_le flags text
  unfold afterNegation
  dsimp only
  by_cases hnegated : (flags.skip text).head? = some '^'
  · rw [if_pos hnegated]
    have hskip' := length_skip_le flags ((flags.skip text).drop 1)
    rw [List.length_drop] at hskip'
    dsimp only
    omega
  · rw [if_neg hnegated]
    exact hskip

/-- The ways in which the beginning of a bracket goes on after hyphens. -/
theorem afterLeading_cases (flags : Flags) (text : Text) :
    (∃ rest, readLeading flags text.length .nothing text = (.nothing, ']' :: rest) ∧
      afterLeading flags text = (CharSet.only ']', flags.skip rest)) ∨
    ((∀ rest, readLeading flags text.length .nothing text ≠ (.nothing, ']' :: rest)) ∧
      afterLeading flags text = readLeading flags text.length .nothing text) := by
  unfold afterLeading
  generalize readLeading flags text.length .nothing text = leading
  obtain ⟨set, rest⟩ := leading
  dsimp only
  split
  · rename_i rest'
    exact Or.inl ⟨rest', rfl, rfl⟩
  · rename_i hne
    right
    refine ⟨?_, rfl⟩
    intro rest' heq
    obtain ⟨hset, hrest⟩ := Prod.mk.inj heq
    exact hne rest' hset hrest

theorem afterLeading_append {flags : Flags} {text : Text}
    (hrest : (afterLeading flags text).2 ≠ []) (more : Text) :
    afterLeading flags (text ++ ')' :: more) =
      ((afterLeading flags text).1, (afterLeading flags text).2 ++ ')' :: more) := by
  have hfuel : text.length ≤ (text ++ ')' :: more).length := by
    rw [List.length_append]
    exact Nat.le_add_right _ _
  rcases afterLeading_cases flags text with ⟨rest, hleading, hafter⟩ | ⟨hne, hafter⟩
  · have hread := readLeading_append (Nat.le_refl text.length)
      (by rw [hleading]; exact List.cons_ne_nil _ _) more hfuel
    rw [hafter] at hrest ⊢
    rw [hleading] at hread
    unfold afterLeading
    simp only [hread, List.cons_append, skip_append hrest]
  · rw [hafter] at hrest
    have hread := readLeading_append (Nat.le_refl text.length) hrest more hfuel
    rw [hafter]
    rcases afterLeading_cases flags (text ++ ')' :: more) with ⟨rest', hleading', -⟩ | ⟨-, hafter'⟩
    · -- The bracket behind the hyphens would be the first character of what follows them.
      rw [hread] at hleading'
      obtain ⟨hset, hcons⟩ := Prod.mk.inj hleading'
      obtain ⟨c, tail, htail⟩ := List.exists_cons_of_ne_nil hrest
      rw [htail, List.cons_append] at hcons
      rw [(List.cons.inj hcons).1] at htail
      exact absurd (Prod.ext hset htail) (hne tail)
    · rw [hafter', hread]

theorem length_afterLeading_le (flags : Flags) (text : Text) :
    (afterLeading flags text).2.length ≤ text.length := by
  have hlength := length_readLeading_le flags text.length .nothing text
  rcases afterLeading_cases flags text with ⟨rest, hleading, hafter⟩ | ⟨-, hafter⟩
  · rw [hafter]
    rw [hleading, List.length_cons] at hlength
    have hskip := length_skip_le flags rest
    dsimp only at hskip ⊢
    omega
  · rw [hafter]
    exact hlength

/-! ## Brackets as a whole -/

theorem readItems_nil (flags : Flags) (fuel : Nat) (context : SetContext) (collected : CharSet) :
    ∃ cause, readItems flags fuel context collected [] = .error cause := by
  cases fuel with
  | zero => exact ⟨_, by rw [readItems]⟩
  | succ fuel =>
    have hskip : flags.skip [] = [] := List.eq_nil_of_length_eq_zero
      (Nat.le_zero.mp (length_skip_le flags []))
    refine ⟨.unclosedBracket, ?_⟩
    rw [readItems, hskip]
    rfl

/-- What is left of a bracket when it has been read, and that more text behind it and more fuel
change nothing. -/
def ReadToEnd (read : Nat → PartReader CharSet) (fuel : Nat) (text : Text) (set : CharSet)
    (rest : Text) : Prop :=
  rest.length ≤ text.length ∧ ∀ more fuel', fuel ≤ fuel' →
    read fuel' (text ++ ')' :: more) = .ok (set, rest ++ ')' :: more)

/-- A reader that goes on with another one after a step that costs one of the fuel. -/
theorem ReadToEnd.of_step {read read' : Nat → PartReader CharSet} {fuel : Nat}
    {text text' rest : Text} {set : CharSet} (h : ReadToEnd read' fuel text' set rest)
    (hlength : text'.length ≤ text.length)
    (hstep : ∀ more n, read (n + 1) (text ++ ')' :: more) = read' n (text' ++ ')' :: more)) :
    ReadToEnd read (fuel + 1) text set rest := by
  refine ⟨Nat.le_trans h.1 hlength, ?_⟩
  intro more fuel' hfuel
  obtain ⟨n, rfl⟩ : ∃ n, fuel' = n + 1 := ⟨fuel' - 1, by omega⟩
  rw [hstep]
  exact h.2 more n (Nat.le_of_succ_le_succ hfuel)

/-- What stands in a bracket between its operators: a named class, a bracket of its own, or
an item or span. -/
def readPart (flags : Flags) (fuel : Nat) : PartReader CharSet
  | '[' :: rest =>
    match namedClass? flags rest with
    | some part => .ok part
    | none => readBracket flags fuel rest
  | text => readSpan flags text

theorem readPart_open (flags : Flags) (fuel : Nat) (rest : Text) :
    readPart flags fuel ('[' :: rest) =
      match namedClass? flags rest with
      | some part => .ok part
      | none => readBracket flags fuel rest :=
  rfl

theorem readPart_cons (flags : Flags) (fuel : Nat) {c : Char} (hopen : c ≠ '[') (rest : Text) :
    readPart flags fuel (c :: rest) = readSpan flags (c :: rest) := by
  unfold readPart
  split
  · rename_i heq
    exact absurd (List.cons.inj heq).1 hopen
  · rfl

/-- The items of a bracket in terms of the first character that counts. -/
theorem readItems_cons {flags : Flags} {text rest : Text} {c : Char}
    (hskip : flags.skip text = c :: rest) (hoperator : setOperator? (c :: rest) = none)
    (fuel : Nat) (context : SetContext) (collected : CharSet) :
    readItems flags (fuel + 1) context collected text =
      if c = ']' then .ok (applyContext flags context collected, rest)
      else readPart flags fuel (c :: rest) >>= fun part =>
        readItems flags fuel context (.union collected part.1) part.2 := by
  rw [readItems, hskip, hoperator]
  dsimp only
  by_cases hclose : c = ']'
  · subst hclose
    rfl
  · rw [if_neg hclose]
    by_cases hopen : c = '['
    · subst hopen
      rw [readPart_open]
      cases hclass : namedClass? flags rest with
      | none => simp only [hclass]
      | some part =>
        simp only [hclass]
        rfl
    · rw [readPart_cons flags fuel hopen]
      split
      · rename_i heq
        cases heq
      · rename_i heq
        exact absurd (List.cons.inj heq).1 hclose
      · rename_i heq
        exact absurd (List.cons.inj heq).1 hopen
      · rfl

theorem readItems_operator {flags : Flags} {text rest : Text} {operator : SetOperator}
    (hoperator : setOperator? (flags.skip text) = some (operator, rest))
    (fuel : Nat) (context : SetContext) (collected : CharSet) :
    readItems flags (fuel + 1) context collected text =
      readItems flags fuel (some (applyContext flags context collected, operator)) .nothing
        rest := by
  rw [readItems, hoperator]

/-- Items behind a part that was read: they need text, so the part did not reach the end. -/
theorem readItems_after {flags : Flags} (read : Nat → PartReader CharSet) {fuel : Nat}
    {context : SetContext} {collected set : CharSet} {text rest : Text}
    (hread : ∀ x middle, read fuel text = .ok (x, middle) → middle ≠ [] →
      ReadToEnd read fuel text x middle)
    (hitems : ∀ context collected text set rest,
      readItems flags fuel context collected text = .ok (set, rest) →
      ReadToEnd (fun fuel => readItems flags fuel context collected) fuel text set rest)
    (h : (read fuel text >>= fun part =>
      readItems flags fuel context (.union collected part.1) part.2) = .ok (set, rest)) :
    ReadToEnd (fun fuel text => read fuel text >>= fun part =>
      readItems flags fuel context (.union collected part.1) part.2) fuel text set rest := by
  cases hpart : read fuel text with
  | error cause =>
    rw [hpart] at h
    cases h
  | ok part =>
    obtain ⟨x, middle⟩ := part
    rw [hpart] at h
    have hafter : readItems flags fuel context (.union collected x) middle = .ok (set, rest) := h
    have hmiddle : middle ≠ [] := by
      intro hnil
      obtain ⟨cause, hcause⟩ := readItems_nil flags fuel context (.union collected x)
      rw [hnil, hcause] at hafter
      cases hafter
    obtain ⟨hlength, happend⟩ := hitems _ _ _ _ _ hafter
    obtain ⟨hlength', happend'⟩ := hread x middle hpart hmiddle
    refine ⟨Nat.le_trans hlength hlength', ?_⟩
    intro more fuel' hfuel
    dsimp only
    rw [happend' more fuel' hfuel]
    exact happend more fuel' hfuel

theorem readBracket_step {flags : Flags} {fuel : Nat}
    (hitems : ∀ context collected text set rest,
      readItems flags fuel context collected text = .ok (set, rest) →
      ReadToEnd (fun fuel => readItems flags fuel context collected) fuel text set rest)
    {text rest : Text} {set : CharSet}
    (h : readBracket flags (fuel + 1) text = .ok (set, rest)) :
    ReadToEnd (readBracket flags) (fuel + 1) text set rest := by
  rw [readBracket_succ] at h
  have hnegation := length_afterNegation_le flags text
  have hleading := length_afterLeading_le flags (afterNegation flags text).2
  cases hinner : readItems flags fuel none (afterLeading flags (afterNegation flags text).2).1
      (afterLeading flags (afterNegation flags text).2).2 with
  | error cause =>
    rw [hinner] at h
    cases h
  | ok part =>
    obtain ⟨inner, rest'⟩ := part
    rw [hinner] at h
    obtain ⟨rfl, rfl⟩ := Prod.mk.inj (Except.ok.inj h)
    have hbehind : (afterLeading flags (afterNegation flags text).2).2 ≠ [] := by
      intro hnil
      obtain ⟨cause, hcause⟩ := readItems_nil flags fuel none
        (afterLeading flags (afterNegation flags text).2).1
      rw [hnil, hcause] at hinner
      cases hinner
    have hnegated : (afterNegation flags text).2 ≠ [] := by
      intro hnil
      rw [hnil] at hleading hbehind
      exact hbehind (List.eq_nil_of_length_eq_zero (Nat.le_zero.mp hleading))
    obtain ⟨hlength, happend⟩ := hitems _ _ _ _ _ hinner
    refine ⟨by dsimp only; omega, ?_⟩
    intro more fuel' hfuel
    obtain ⟨n, rfl⟩ : ∃ n, fuel' = n + 1 := ⟨fuel' - 1, by omega⟩
    have hread := happend more n (by omega)
    dsimp only at hread
    rw [readBracket_succ, afterNegation_append hnegated, afterLeading_append hbehind, hread]
    rfl

/-- A part of a bracket that does not reach the end of the text. -/
theorem readPart_toEnd {flags : Flags} {fuel : Nat}
    (hbracket : ∀ text set rest, readBracket flags fuel text = .ok (set, rest) →
      ReadToEnd (readBracket flags) fuel text set rest)
    {text rest : Text} {set : CharSet} (h : readPart flags fuel text = .ok (set, rest))
    (hrest : rest ≠ []) : ReadToEnd (readPart flags) fuel text set rest := by
  cases text with
  | nil => cases h
  | cons c text =>
    by_cases hopen : c = '['
    · subst hopen
      rw [readPart_open] at h
      cases hclass : namedClass? flags text with
      | some part =>
        rw [hclass] at h
        obtain rfl := Except.ok.inj h
        refine ⟨Nat.le_succ_of_le (namedClass?_some_append hclass []).1, ?_⟩
        intro more fuel' _
        rw [List.cons_append, readPart_open, (namedClass?_some_append hclass more).2]
      | none =>
        rw [hclass] at h
        obtain ⟨hlength, happend⟩ := hbracket _ _ _ h
        refine ⟨Nat.le_succ_of_le hlength, ?_⟩
        intro more fuel' hfuel
        rw [List.cons_append, readPart_open, namedClass?_none_append hclass more]
        exact happend more fuel' hfuel
    · rw [readPart_cons flags fuel hopen] at h
      refine ⟨(continues_readSpan flags).length_le h, ?_⟩
      intro more fuel' _
      rw [List.cons_append, readPart_cons flags fuel' hopen]
      exact (continues_readSpan flags).append h hrest more

theorem readItems_step {flags : Flags} {fuel : Nat}
    (hbracket : ∀ text set rest, readBracket flags fuel text = .ok (set, rest) →
      ReadToEnd (readBracket flags) fuel text set rest)
    (hitems : ∀ context collected text set rest,
      readItems flags fuel context collected text = .ok (set, rest) →
      ReadToEnd (fun fuel => readItems flags fuel context collected) fuel text set rest)
    {context : SetContext} {collected set : CharSet} {text rest : Text}
    (h : readItems flags (fuel + 1) context collected text = .ok (set, rest)) :
    ReadToEnd (fun fuel => readItems flags fuel context collected) (fuel + 1) text set rest := by
  have hlength := length_skip_le flags text
  cases hoperator : setOperator? (flags.skip text) with
  | some part =>
    obtain ⟨operator, behind⟩ := part
    rw [readItems_operator hoperator] at h
    have hskip : flags.skip text ≠ [] := by
      intro hnil
      rw [hnil] at hoperator
      cases hoperator
    have hbehind := (setOperator?_some_append hoperator []).1
    refine (hitems _ _ _ _ _ h).of_step (Nat.le_trans hbehind hlength) ?_
    intro more n
    have hoperator' := (setOperator?_some_append hoperator more).2
    rw [← skip_append hskip more] at hoperator'
    exact readItems_operator hoperator' n context collected
  | none =>
    cases hskip : flags.skip text with
    | nil =>
      rw [readItems, hskip] at h
      cases h
    | cons c behind =>
      rw [hskip] at hoperator hlength
      have hskip' (more : Text) :
          flags.skip (text ++ ')' :: more) = c :: (behind ++ ')' :: more) := by
        rw [skip_append (by rw [hskip]; exact List.cons_ne_nil _ _), hskip]
        rfl
      have hread (more : Text) (n : Nat) :=
        readItems_cons (hskip' more) (setOperator?_none_append hoperator more) n context collected
      rw [readItems_cons hskip hoperator] at h
      by_cases hclose : c = ']'
      · rw [if_pos hclose] at h
        obtain ⟨rfl, rfl⟩ := Prod.mk.inj (Except.ok.inj h)
        refine ⟨Nat.le_of_succ_le hlength, ?_⟩
        intro more fuel' hfuel
        obtain ⟨n, rfl⟩ : ∃ n, fuel' = n + 1 := ⟨fuel' - 1, by omega⟩
        exact (hread more n).trans (if_pos hclose)
      · rw [if_neg hclose] at h
        have hpart := readItems_after (readPart flags)
          (fun _ _ hpart hmiddle => readPart_toEnd hbracket hpart hmiddle) hitems h
        refine hpart.of_step hlength ?_
        intro more n
        exact (hread more n).trans (if_neg hclose)

theorem readBracket_readItems_append (flags : Flags) (fuel : Nat) :
    (∀ text set rest, readBracket flags fuel text = .ok (set, rest) →
      ReadToEnd (readBracket flags) fuel text set rest) ∧
    ∀ context collected text set rest,
      readItems flags fuel context collected text = .ok (set, rest) →
      ReadToEnd (fun fuel => readItems flags fuel context collected) fuel text set rest := by
  induction fuel with
  | zero =>
    constructor
    · intro text set rest h
      rw [readBracket] at h
      cases h
    · intro context collected text set rest h
      rw [readItems] at h
      cases h
  | succ fuel ih =>
    obtain ⟨hbracket, hitems⟩ := ih
    constructor
    · intro text set rest h
      exact readBracket_step hitems h
    · intro context collected text set rest h
      exact readItems_step hbracket hitems h

/-- A bracket is read in the same way whatever stands behind it, with fuel for the whole text. -/
theorem continues_readBracket (flags : Flags) :
    Continues fun text => readBracket flags (2 * text.length + 2) text := by
  intro text set rest h
  obtain ⟨hlength, happend⟩ := (readBracket_readItems_append flags _).1 text set rest h
  refine ⟨hlength, Or.inl ?_⟩
  intro more
  refine happend more _ ?_
  rw [List.length_append]
  omega

end ScratchEditor

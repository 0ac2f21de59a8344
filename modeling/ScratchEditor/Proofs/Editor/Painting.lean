import ScratchEditor.Editor.Session
import ScratchEditor.Proofs.Token.Regions

/-!
# Painting an edited text

A host keeps a style for every character of a session.  After an edit the characters that
survive move with their styles, and the spans that the session answered are painted over
them in order.

Main definitions:

- `Styles.paint`: spans painted over styles.
- `Splice`: a stretch of a text that an edit replaced.
- `Session.Overtypes`: a closing brace that takes the place of a whole text.
- `View`: a session with the styles of its characters, `View.load` and `View.step`.

Main results:

- `Styles.getElem?_paint`: the style of a character after painting.
- `Session.perform_eq`: every edit replaces a stretch and reports what it produced.
- `Session.replacesAll_splice?_iff`: which edits are taken for a new text.
-/

namespace ScratchEditor

/-! ## Painting -/

/-- The styles of characters, as far as they have been painted. -/
abbrev Styles := List (Option Style)

namespace Styles

/-- Paints one span over styles. -/
def paintSpan (styles : Styles) (span : Span) : Styles :=
  styles.mapIdx fun offset style => if span.extent.holds offset then some span.style else style

/-- Paints spans over styles, one after the other. -/
def paint (styles : Styles) (spans : List Span) : Styles :=
  spans.foldl paintSpan styles

/-- After painting a character has the style of the last span that holds it. -/
theorem getElem?_paint (styles : Styles) (spans : List Span) (offset : Nat) :
    (paint styles spans)[offset]? =
      styles[offset]?.map fun style => (colorAt spans offset).or style := by
  induction spans using List.reverseRecOn with
  | nil =>
    have hpaint : paint styles [] = styles := rfl
    rw [hpaint]
    cases styles[offset]? <;> simp [colorAt]
  | append_singleton spans span ih =>
    have hpaint : paint styles (spans ++ [span]) = paintSpan (paint styles spans) span := by
      simp [paint]
    rw [hpaint, paintSpan, List.getElem?_mapIdx, ih, Option.map_map, colorAt_append]
    congr 1
    ext1 style
    by_cases hholds : span.extent.holds offset = true
    · simp [colorAt, hholds]
    · simp [colorAt, hholds]

@[simp]
theorem length_paint (styles : Styles) (spans : List Span) :
    (paint styles spans).length = styles.length := by
  induction spans generalizing styles with
  | nil => rfl
  | cons span spans ih =>
    have hpaint : paint styles (span :: spans) = paint (paintSpan styles span) spans := rfl
    rw [hpaint, ih]
    simp [paintSpan]

end Styles

/-! ## Splices -/

/-- A stretch of a text, and what is put in its place. -/
structure Splice where
  start : Nat
  stop : Nat
  inserted : Text

namespace Splice

/-- The text with the stretch replaced. -/
def apply (splice : Splice) (text : Text) : Text :=
  text.take splice.start ++ (splice.inserted ++ text.drop splice.stop)

/-- The styles of the characters that survive, moved with the text; new characters have none. -/
def carry (splice : Splice) (styles : Styles) : Styles :=
  styles.take splice.start ++
    (List.replicate splice.inserted.length none ++ styles.drop splice.stop)

/-- The stretch of the new text that was put in place. -/
def produced (splice : Splice) : Extent :=
  ⟨splice.start, splice.inserted.length⟩

/-- By how many characters the text becomes longer. -/
def delta (splice : Splice) : Int :=
  Int.ofNat splice.inserted.length - Int.ofNat (splice.stop - splice.start)

/-- The stretch lies in the text. -/
structure Fits (splice : Splice) (text : Text) : Prop where
  start_le : splice.start ≤ splice.stop
  stop_le : splice.stop ≤ text.length

theorem delta_insert (caret : Nat) (inserted : Text) :
    delta ⟨caret, caret, inserted⟩ = inserted.length := by
  simp [delta]

/-- A stretch of so many characters before a place makes the text that much shorter. -/
theorem delta_back {caret deleted : Nat} (inserted : Text) (h : deleted ≤ caret) :
    delta ⟨caret - deleted, caret, inserted⟩ =
      Int.ofNat inserted.length - Int.ofNat deleted := by
  unfold delta
  dsimp only
  rw [Nat.sub_sub_self h]

end Splice

/-! ## Edits -/

/-- What a host asks of a session. -/
inductive Input
  | setCaret (offset : Nat)
  | typeChar (typed : Char)
  | insert (text : Text)
  | deleteBackward

namespace Session

/-- What an input makes of a session, and the spans that the session answers. -/
def perform (session : Session) : Input → Except BufferError (Session × List Span)
  | .setCaret offset => .ok (session.setCaret offset, [])
  | .typeChar typed => session.typeChar typed
  | .insert text => session.insert text
  | .deleteBackward => session.deleteBackward

/-- What an input replaces, if it is an edit. -/
def splice? (session : Session) : Input → Option Splice
  | .setCaret _ => none
  | .typeChar typed =>
    match session.indentUnit.onKey typed (session.text.take session.caret) with
    | .asTyped => some ⟨session.caret, session.caret, [typed]⟩
    | .instead deleted inserted => some ⟨session.caret - deleted, session.caret, inserted⟩
  | .insert text => some ⟨session.caret, session.caret, text⟩
  | .deleteBackward =>
    if session.caret = 0 then none else some ⟨session.caret - 1, session.caret, []⟩

end Session

/-- A session of some settings that keeps a line feed at the end of its text. -/
structure Session.Ready (settings : Settings) (session : Session) : Prop where
  highlighter : session.highlighter = .ofSettings settings
  keeps : session.keepFinalNewline = true
  caret_le : session.caret ≤ session.text.length
  ends : session.text.getLast? = some '\n'

/-- A closing brace takes the place of the one blank that is the whole text. -/
structure Session.Overtypes (session : Session) (input : Input) : Prop where
  input_eq : input = .typeChar '}'
  width_eq : session.indentUnit.width = 1
  text_eq : session.text = [session.indentUnit.blank]
  caret_eq : session.caret = 1

theorem IndentUnit.blank_ne_newline (unit : IndentUnit) : unit.blank ≠ '\n' := by
  cases unit with
  | tab => decide
  | spaces width => exact (by decide : ' ' ≠ '\n')

/-- What keys do other than inserting themselves. -/
theorem IndentUnit.onKey_cases (unit : IndentUnit) (typed : Char) (before : Text) :
    unit.onKey typed before = .asTyped ∨
      (∃ depth, unit.onKey typed before = .instead 0 ('\n' :: unit.times depth)) ∨
      (typed = '}' ∧ unit.times 1 <:+ before ∧
        unit.onKey typed before = .instead unit.width ['}']) := by
  by_cases hopens : typed = '\n' ∧ 0 < indentDepth before
  · obtain ⟨rfl, hdepth⟩ := hopens
    exact Or.inr (Or.inl ⟨_, onKey_newline hdepth⟩)
  · by_cases hcloses : typed = '}' ∧ unit.times 1 <:+ before
    · obtain ⟨rfl, hsuffix⟩ := hcloses
      exact Or.inr (Or.inr ⟨rfl, hsuffix, onKey_brace hsuffix⟩)
    · exact Or.inl (onKey_of_not hopens hcloses)

/-- One unit is as long as it is wide. -/
theorem IndentUnit.width_le_of_suffix (unit : IndentUnit) {text : Text} {caret : Nat}
    (hsuffix : unit.times 1 <:+ text.take caret) : unit.width ≤ caret := by
  have hlength := hsuffix.length_le
  rw [length_times, count_one, List.length_take] at hlength
  omega

namespace Session

variable {settings : Settings} {session : Session}

/-- The session after a stretch of its text has been replaced. -/
def splicedBy (session : Session) (splice : Splice) : Session :=
  { session with
    buffer := ⟨splice.apply session.text⟩
    caret := splice.start + splice.inserted.length }

theorem insert_eq (h : session.caret ≤ session.text.length) (text : Text) :
    session.insert text =
      .ok ((session.splicedBy ⟨session.caret, session.caret, text⟩).settle
        ⟨session.caret, text.length⟩ text.length) := by
  have hbuffer : session.buffer.insert session.caret text =
      .ok ⟨Splice.apply ⟨session.caret, session.caret, text⟩ session.text⟩ :=
    Buffer.insert_of_le text h
  have hinsert : session.insert text = (session.buffer.insert session.caret text >>= fun buffer =>
      .ok ({ session with buffer := buffer, caret := session.caret + text.length }.settle
        ⟨session.caret, text.length⟩ text.length)) := rfl
  rw [hinsert, hbuffer]
  rfl

theorem typeChar_eq (h : session.caret ≤ session.text.length) (typed : Char) :
    session.typeChar typed =
      match session.indentUnit.onKey typed (session.text.take session.caret) with
      | .asTyped => session.insert [typed]
      | .instead deleted inserted =>
        .ok ((session.splicedBy ⟨session.caret - deleted, session.caret, inserted⟩).settle
          ⟨session.caret - deleted, inserted.length⟩
          (Int.ofNat inserted.length - Int.ofNat deleted)) := by
  have hbefore : session.buffer.before session.caret = .ok (session.text.take session.caret) :=
    Buffer.before_of_le h
  unfold typeChar
  rw [hbefore]
  simp only [bind, Except.bind]
  cases session.indentUnit.onKey typed (session.text.take session.caret) with
  | asTyped => rfl
  | «instead» deleted inserted =>
    have hreplace : session.buffer.replace (session.caret - deleted) session.caret inserted =
        .ok ⟨Splice.apply ⟨session.caret - deleted, session.caret, inserted⟩ session.text⟩ :=
      Buffer.replace_of_le inserted (Nat.sub_le session.caret deleted) h
    dsimp only
    rw [hreplace]
    rfl

theorem deleteBackward_eq (h : session.caret ≤ session.text.length) (hpos : session.caret ≠ 0) :
    session.deleteBackward =
      .ok ((session.splicedBy ⟨session.caret - 1, session.caret, []⟩).settle
        ⟨session.caret - 1, 0⟩ (-1)) := by
  have hremove : session.buffer.remove (session.caret - 1) session.caret =
      .ok ⟨Splice.apply ⟨session.caret - 1, session.caret, []⟩ session.text⟩ :=
    Buffer.remove_of_le (Nat.sub_le session.caret 1) h
  unfold deleteBackward
  rw [if_neg hpos, hremove]
  rfl

/-- A change that leaves a character, or changes the length, does not replace the whole text. -/
theorem replacesAll_eq_false {extent : Extent} {delta : Int} {text : Text}
    (h : delta ≠ 0 ∨ extent.length ≠ text.length) :
    (Edit.ofText extent delta).replacesAll text = false := by
  have hwhole : extent.length ≠ text.length → extent ≠ Extent.whole text := by
    rintro hne rfl
    exact hne rfl
  unfold Edit.replacesAll Edit.ofText
  rcases h with hdelta | hlength
  · simp [hdelta]
  · simp [hwhole hlength]

theorem length_apply (splice : Splice) {text : Text} (h : splice.Fits text) :
    (splice.apply text).length =
      splice.start + splice.inserted.length + (text.length - splice.stop) := by
  have hstart := h.start_le
  have hstop := h.stop_le
  simp only [Splice.apply, List.length_append, List.length_take, List.length_drop]
  omega

/--
What an edit replaces: text goes in at the caret, a closing brace takes the place of the unit
before it, or the character before the caret is taken away.
-/
theorem splice?_cases {input : Input} {splice : Splice}
    (hsplice : session.splice? input = some splice) :
    (∃ text, splice = ⟨session.caret, session.caret, text⟩ ∧
      (input = .insert text ∨ text ≠ [] ∧ ∃ typed, input = .typeChar typed)) ∨
    (input = .typeChar '}' ∧
      session.indentUnit.times 1 <:+ session.text.take session.caret ∧
      splice = ⟨session.caret - session.indentUnit.width, session.caret, ['}']⟩) ∨
    (input = .deleteBackward ∧ session.caret ≠ 0 ∧
      splice = ⟨session.caret - 1, session.caret, []⟩) := by
  cases input with
  | setCaret offset => cases hsplice
  | insert text => exact Or.inl ⟨text, (Option.some.inj hsplice).symm, Or.inl rfl⟩
  | typeChar typed =>
    unfold splice? at hsplice
    dsimp only at hsplice
    rcases session.indentUnit.onKey_cases typed (session.text.take session.caret) with
      hkey | ⟨depth, hkey⟩ | ⟨rfl, hsuffix, hkey⟩
    · rw [hkey] at hsplice
      exact Or.inl ⟨_, (Option.some.inj hsplice).symm, Or.inr ⟨List.cons_ne_nil _ _, typed, rfl⟩⟩
    · rw [hkey] at hsplice
      exact Or.inl ⟨_, (Option.some.inj hsplice).symm, Or.inr ⟨List.cons_ne_nil _ _, typed, rfl⟩⟩
    · rw [hkey] at hsplice
      exact Or.inr (Or.inl ⟨rfl, hsuffix, (Option.some.inj hsplice).symm⟩)
  | deleteBackward =>
    unfold splice? at hsplice
    split_ifs at hsplice with hzero
    exact Or.inr (Or.inr ⟨rfl, hzero, (Option.some.inj hsplice).symm⟩)

/-- What an edit replaces lies in the text. -/
theorem fits_of_splice? (h : session.caret ≤ session.text.length) {input : Input}
    {splice : Splice} (hsplice : session.splice? input = some splice) :
    splice.Fits session.text := by
  rcases splice?_cases hsplice with ⟨text, rfl, -⟩ | ⟨-, -, rfl⟩ | ⟨-, -, rfl⟩
  · exact ⟨Nat.le_refl _, h⟩
  · exact ⟨Nat.sub_le _ _, h⟩
  · exact ⟨Nat.sub_le _ _, h⟩

/-- A key replaces a stretch and reports what it produced. -/
theorem typeChar_of_splice? (h : session.caret ≤ session.text.length) {typed : Char}
    {splice : Splice} (hsplice : session.splice? (.typeChar typed) = some splice) :
    session.typeChar typed =
      .ok ((session.splicedBy splice).settle splice.produced splice.delta) := by
  rw [typeChar_eq h]
  unfold splice? at hsplice
  dsimp only at hsplice
  rcases session.indentUnit.onKey_cases typed (session.text.take session.caret) with
    hkey | ⟨depth, hkey⟩ | ⟨-, hsuffix, hkey⟩
  · rw [hkey] at hsplice ⊢
    obtain rfl := Option.some.inj hsplice
    rw [Splice.delta_insert]
    exact insert_eq h [typed]
  · rw [hkey] at hsplice ⊢
    obtain rfl := Option.some.inj hsplice
    rw [Splice.delta_back _ (Nat.zero_le _)]
    rfl
  · -- No key takes more characters away than stand before the caret.
    rw [hkey] at hsplice ⊢
    obtain rfl := Option.some.inj hsplice
    rw [Splice.delta_back _ (session.indentUnit.width_le_of_suffix hsuffix)]
    rfl

/-- An edit replaces a stretch and reports what it produced. -/
theorem perform_eq (h : session.caret ≤ session.text.length) {input : Input} {splice : Splice}
    (hsplice : session.splice? input = some splice) :
    splice.Fits session.text ∧
      session.perform input =
        .ok ((session.splicedBy splice).settle splice.produced splice.delta) := by
  refine ⟨fits_of_splice? h hsplice, ?_⟩
  cases input with
  | setCaret offset => cases hsplice
  | insert text =>
    obtain rfl := Option.some.inj hsplice
    rw [Splice.delta_insert]
    exact insert_eq h text
  | typeChar typed => exact typeChar_of_splice? h hsplice
  | deleteBackward =>
    unfold splice? at hsplice
    split_ifs at hsplice with hzero
    obtain rfl := Option.some.inj hsplice
    rw [Splice.delta_back _ (Nat.one_le_iff_ne_zero.mpr hzero)]
    exact deleteBackward_eq h hzero

/-- An input that is no edit only moves the caret, and reports nothing. -/
theorem perform_of_splice?_none (h : session.caret ≤ session.text.length) {input : Input}
    (hsplice : session.splice? input = none) :
    ∃ caret ≤ session.text.length,
      session.perform input = .ok ({ session with caret := caret }, []) := by
  cases input with
  | setCaret offset => exact ⟨_, Nat.min_le_right _ _, rfl⟩
  | insert text => cases hsplice
  | typeChar typed =>
    unfold splice? at hsplice
    dsimp only at hsplice
    split at hsplice
    · cases hsplice
    · cases hsplice
  | deleteBackward =>
    unfold splice? at hsplice
    split_ifs at hsplice with hzero
    exact ⟨session.caret, h, if_pos hzero⟩

/-- Only a text as long as the whole that is put in its place is taken for a new text. -/
theorem replacesAll_iff {splice : Splice} {text : Text} (h : splice.Fits text) :
    (Edit.ofText splice.produced splice.delta).replacesAll (splice.apply text) = true ↔
      splice.start = 0 ∧ splice.stop = text.length ∧
        splice.inserted.length = text.length := by
  have hlength := length_apply splice h
  have hstart := h.start_le
  have hstop := h.stop_le
  have hreplaces : (Edit.ofText splice.produced splice.delta).replacesAll (splice.apply text) =
      true ↔ splice.delta = 0 ∧ splice.produced = Extent.whole (splice.apply text) := by
    simp [Edit.replacesAll, Edit.ofText]
  rw [hreplaces]
  unfold Splice.delta Splice.produced Extent.whole
  simp only [Int.ofNat_eq_natCast, Extent.mk.injEq]
  omega

/-- The brace that takes the place of a blank replaces the whole text. -/
theorem Overtypes.splice? {input : Input} (h : session.Overtypes input) :
    session.splice? input = some ⟨0, 1, ['}']⟩ := by
  obtain ⟨rfl, hwidth, htext, hcaret⟩ := h
  have hunit : session.indentUnit.times 1 = session.text.take session.caret := by
    rw [htext, hcaret, IndentUnit.times, IndentUnit.count_one, hwidth]
    rfl
  unfold Session.splice?
  dsimp only
  rw [← hunit, IndentUnit.onKey_brace (List.suffix_refl _), hwidth, hcaret]

/-- A brace that replaces a whole text and is as long takes the place of a blank. -/
theorem overtypes_of_suffix
    (hsuffix : session.indentUnit.times 1 <:+ session.text.take session.caret)
    (hstart : session.caret - session.indentUnit.width = 0)
    (hstop : session.caret = session.text.length) (hlength : 1 = session.text.length) :
    session.Overtypes (.typeChar '}') := by
  have hcaret : session.caret = 1 := hstop.trans hlength.symm
  have hwidth : session.indentUnit.width = 1 := by
    have hle := session.indentUnit.width_le_of_suffix hsuffix
    omega
  rw [hstop, List.take_length] at hsuffix
  have hunit : session.indentUnit.times 1 = session.text := by
    apply hsuffix.eq_of_length
    rw [IndentUnit.length_times, IndentUnit.count_one, hwidth, ← hlength]
  refine ⟨rfl, hwidth, ?_, hcaret⟩
  rw [← hunit, IndentUnit.times, IndentUnit.count_one, hwidth]
  rfl

/--
Apart from an empty text that is inserted into an empty one, only the brace that takes the place
of a blank is taken for a new text.
-/
theorem replacesAll_splice?_iff (h : session.caret ≤ session.text.length) {input : Input}
    {splice : Splice} (hsplice : session.splice? input = some splice) :
    (Edit.ofText splice.produced splice.delta).replacesAll (splice.apply session.text) = true ↔
      session.Overtypes input ∨ input = .insert [] ∧ session.text = [] := by
  rw [replacesAll_iff (fits_of_splice? h hsplice)]
  constructor
  · rintro ⟨hstart, hstop, hlength⟩
    rcases splice?_cases hsplice with
      ⟨text, rfl, hinput⟩ | ⟨rfl, hsuffix, rfl⟩ | ⟨rfl, hzero, rfl⟩
    · -- Text that goes in replaces nothing, so it is the whole text only if both are empty.
      dsimp only at hstart hstop hlength
      have hnil : session.text = [] := List.length_eq_zero_iff.mp (hstop.symm.trans hstart)
      have htext : text = [] := List.length_eq_zero_iff.mp (by omega)
      rcases hinput with rfl | ⟨hne, -⟩
      · exact Or.inr ⟨by rw [htext], hnil⟩
      · exact absurd htext hne
    · exact Or.inl (overtypes_of_suffix hsuffix hstart hstop hlength)
    · exact absurd (hstop.trans hlength.symm) hzero
  · rintro (hover | ⟨rfl, hnil⟩)
    · rw [hover.splice?] at hsplice
      obtain rfl := Option.some.inj hsplice
      simp [hover.text_eq]
    · obtain rfl := Option.some.inj hsplice
      have hcaret : session.caret = 0 := by
        rw [hnil] at h
        exact Nat.le_zero.mp h
      simp [hcaret, hnil]

/-- What an edit of a text that ends with a line feed produces is never the whole new text. -/
theorem perform_of_splice? (h : session.Ready settings) {input : Input} {splice : Splice}
    (hsplice : session.splice? input = some splice) :
    splice.Fits session.text ∧ ∃ delta,
      session.perform input = .ok ((session.splicedBy splice).settle
        ⟨splice.start, splice.inserted.length⟩ delta) ∧
      (Edit.ofText ⟨splice.start, splice.inserted.length⟩ delta).replacesAll
        (splice.apply session.text) = false := by
  obtain ⟨hfits, hperform⟩ := perform_eq h.caret_le hsplice
  refine ⟨hfits, splice.delta, hperform, ?_⟩
  rw [Bool.eq_false_iff]
  intro hall
  have hends := h.ends
  rcases (replacesAll_splice?_iff h.caret_le hsplice).mp hall with hover | ⟨-, hnil⟩
  · rw [hover.text_eq] at hends
    exact session.indentUnit.blank_ne_newline (Option.some.inj hends)
  · rw [hnil] at hends
    cases hends

end Session

/-- A session with the styles of its characters. -/
structure View where
  session : Session
  styles : Styles

namespace View

/-- Opens a text in a session and paints it. -/
def load (session : Session) (text : Text) : View :=
  let (opened, spans) := session.load text
  ⟨opened, .paint (List.replicate opened.buffer.size none) spans⟩

/-- Hands an input to the session, moves the styles with the text and paints the answer. -/
def step (view : View) (input : Input) : Except BufferError View := do
  let (session, spans) ← view.session.perform input
  let moved := ((view.session.splice? input).map (·.carry view.styles)).getD view.styles
  let padded := moved ++ List.replicate (session.buffer.size - moved.length) none
  return ⟨session, .paint padded spans⟩

/-- The host after each of some inputs. -/
def run (view : View) : List Input → Except BufferError (List View)
  | [] => .ok []
  | input :: rest => do
    let next ← view.step input
    let later ← next.run rest
    return next :: later

end View

end ScratchEditor

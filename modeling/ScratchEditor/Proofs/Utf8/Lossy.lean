import ScratchEditor.Proofs.Utf8.Reading

/-!
# Decoding with replacements

Bytes are decoded from the front: an encoding gives its character, and every
maximal subpart of what is ill-formed gives one replacement.  `LossyDecoding` says
so without an order of reading, and decoding is the one function that satisfies it.
The bytes of a text hold nothing ill-formed, and decoding without replacements reads them too.

Main definitions:

- `LossyDecoding`: the texts that bytes decode to, by encodings and maximal
  subparts.

Main results:

- `lossyDecoding_iff`: decoding gives the one lossy decoding of its bytes.
- `decodeLossy_append`: decoding distributes over a cut that divides no character.
- `decode?_encode`: a text is read back from its bytes.
-/

namespace ScratchEditor

namespace Utf8

/-- A text that bytes decode to, with one replacement for every maximal subpart of bytes that
encode nothing. -/
inductive LossyDecoding : Bytes → Text → Prop
  /-- No bytes are no characters. -/
  | nil : LossyDecoding [] []
  /-- An encoding is its character. -/
  | char (c : Char) {rest : Bytes} {text : Text} (hrest : LossyDecoding rest text) :
    LossyDecoding (encodeChar c ++ rest) (c :: text)
  /-- A maximal subpart is one replacement. -/
  | subpart {piece rest : Bytes} {text : Text} (hpiece : MaximalSubpart piece rest)
    (hrest : LossyDecoding rest text) : LossyDecoding (piece ++ rest) (replacement :: text)

/-! ## Decoding step by step -/

/-- Dropping what was read, the lead byte being read already. -/
theorem drop_pred_of_cons_eq {b : UInt8} {rest piece more : Bytes} (hpiece : piece ≠ [])
    (h : b :: rest = piece ++ more) : rest.drop (piece.length - 1) = more := by
  cases piece with
  | nil => exact absurd rfl hpiece
  | cons b' piece =>
    rw [List.cons_append, List.cons.injEq] at h
    rw [h.2, List.length_cons, Nat.add_sub_cancel, List.drop_left]

/-- A maximal subpart is not empty. -/
theorem MaximalSubpart.ne_nil {piece rest : Bytes} (h : MaximalSubpart piece rest) :
    piece ≠ [] := by
  rcases h.initial with hone | ⟨hne, -⟩
  · exact List.ne_nil_of_length_eq_add_one hone
  · exact hne

/-- More rounds than there are bytes change nothing. -/
theorem decodeLossyFrom_of_length_le {fuel : Nat} {bytes : Bytes} (h : bytes.length ≤ fuel) :
    decodeLossyFrom fuel bytes = decodeLossy bytes := by
  suffices hfuel : ∀ n m (bytes : Bytes), bytes.length ≤ n → bytes.length ≤ m →
      decodeLossyFrom n bytes = decodeLossyFrom m bytes from
    hfuel fuel bytes.length bytes h (Nat.le_refl _)
  intro n
  induction n with
  | zero =>
    intro m bytes hn _
    obtain rfl := List.eq_nil_of_length_eq_zero (Nat.le_zero.mp hn)
    cases m <;> rfl
  | succ n ih =>
    intro m bytes hn hm
    cases bytes with
    | nil => cases m <;> rfl
    | cons b rest =>
      cases m with
      | zero => exact absurd hm (by simp)
      | succ m =>
        rw [List.length_cons] at hn hm
        have hdrop : ∀ k, decodeLossyFrom n (rest.drop k) = decodeLossyFrom m (rest.drop k) := by
          intro k
          apply ih
          · rw [List.length_drop]
            omega
          · rw [List.length_drop]
            omega
        unfold decodeLossyFrom
        cases read b rest with
        | char c width => simp only [hdrop]
        | broken width => simp only [hdrop]
        | cut => rfl

@[simp]
theorem decodeLossy_nil : decodeLossy [] = [] :=
  rfl

/-- Decoding reads one character and goes on behind it. -/
theorem decodeLossy_cons (b : UInt8) (rest : Bytes) :
    decodeLossy (b :: rest) =
      match read b rest with
      | .char c width => c :: decodeLossy (rest.drop (width - 1))
      | .broken width => replacement :: decodeLossy (rest.drop (width - 1))
      | .cut => [replacement] := by
  have hdrop : ∀ k, decodeLossyFrom rest.length (rest.drop k) = decodeLossy (rest.drop k) := by
    intro k
    apply decodeLossyFrom_of_length_le
    rw [List.length_drop]
    omega
  rw [decodeLossy, List.length_cons, decodeLossyFrom]
  cases read b rest with
  | char c width => simp only [hdrop]
  | broken width => simp only [hdrop]
  | cut => rfl

/-- Reading the encoding of a character gives it back. -/
theorem read_of_encodeChar {c : Char} {b : UInt8} {rest more : Bytes}
    (h : b :: rest = encodeChar c ++ more) : read b rest = .char c (encodeChar c).length := by
  have hprefix : encodeChar c <+: b :: rest := ⟨more, h.symm⟩
  rcases read_cases b rest with ⟨d, more', hd, hread⟩ | ⟨hbegins, -⟩ |
    ⟨-, piece, more', hp, hpiece, -⟩
  · obtain rfl := encodeChar_prefix_unique hprefix ⟨more', hd.symm⟩
    exact hread
  · exact absurd hbegins (not_beginsChar_of_prefix_encodeChar hprefix)
  · rw [hp] at hprefix
    exact absurd hprefix (hpiece.not_encodeChar c)

@[simp]
theorem decodeLossy_encodeChar_append (c : Char) (rest : Bytes) :
    decodeLossy (encodeChar c ++ rest) = c :: decodeLossy rest := by
  cases h : encodeChar c ++ rest with
  | nil => exact absurd (List.append_eq_nil_iff.mp h).1 (encodeChar_ne_nil c)
  | cons b tails =>
    rw [decodeLossy_cons, read_of_encodeChar h.symm]
    simp only [drop_pred_of_cons_eq (encodeChar_ne_nil c) h.symm]

/-- Bytes that end inside a character are a maximal subpart with nothing behind it. -/
theorem BeginsChar.maximalSubpart {bytes : Bytes} (hne : bytes ≠ []) (h : BeginsChar bytes) :
    MaximalSubpart bytes [] where
  not_encodeChar := by
    intro c hc
    rw [List.append_nil] at hc
    exact not_beginsChar_of_prefix_encodeChar hc h
  initial := Or.inr ⟨hne, h⟩
  longest := by
    intro longer hlonger _
    rw [List.append_nil] at hlonger
    exact hlonger.length_le

/-- Two maximal subparts at the beginning of the same bytes are the same. -/
theorem MaximalSubpart.unique {piece rest piece' rest' : Bytes} (h : MaximalSubpart piece rest)
    (h' : MaximalSubpart piece' rest') (heq : piece ++ rest = piece' ++ rest') :
    piece = piece' := by
  have hle : piece.length ≤ piece'.length := by
    rcases h.initial with hone | ⟨-, hbegins⟩
    · have := List.length_pos_iff.mpr h'.ne_nil
      omega
    · exact h'.longest piece ⟨rest, heq⟩ hbegins
  have hle' : piece'.length ≤ piece.length := by
    rcases h'.initial with hone | ⟨-, hbegins⟩
    · have := List.length_pos_iff.mpr h.ne_nil
      omega
    · exact h.longest piece' ⟨rest', heq.symm⟩ hbegins
  exact (List.append_inj heq (Nat.le_antisymm hle hle')).1

/-- Decoding a maximal subpart gives one replacement. -/
theorem MaximalSubpart.decodeLossy_append {piece rest : Bytes} (h : MaximalSubpart piece rest) :
    decodeLossy (piece ++ rest) = replacement :: decodeLossy rest := by
  cases hbytes : piece ++ rest with
  | nil => exact absurd (List.append_eq_nil_iff.mp hbytes).1 h.ne_nil
  | cons b tails =>
    rw [decodeLossy_cons]
    rcases read_cases b tails with ⟨c, more, hc, -⟩ | ⟨hbegins, hread⟩ |
      ⟨-, piece', more, hp, hpiece', hread⟩
    · exact absurd ⟨more, by rw [hbytes, hc]⟩ (h.not_encodeChar c)
    · have hwhole := hbegins.maximalSubpart (List.cons_ne_nil b tails)
      have hpiece := h.unique hwhole (by rw [hbytes, List.append_nil])
      have hrest : rest = [] := by
        rw [hpiece] at hbytes
        exact List.append_cancel_left (by rw [hbytes, List.append_nil])
      rw [hread, hrest, decodeLossy_nil]
    · have hpiece := h.unique hpiece' (by rw [hbytes, hp])
      subst hpiece
      have hrest : rest = more := List.append_cancel_left (by rw [hbytes, hp])
      rw [hread]
      simp only [drop_pred_of_cons_eq h.ne_nil hp, hrest]

/-! ## The one lossy decoding -/

/-- Decoding gives a lossy decoding. -/
theorem lossyDecoding_decodeLossy (bytes : Bytes) : LossyDecoding bytes (decodeLossy bytes) := by
  induction hn : bytes.length using Nat.strongRecOn generalizing bytes with
  | ind n ih =>
    cases bytes with
    | nil => exact .nil
    | cons b rest =>
      rcases read_cases b rest with ⟨c, more, hc, -⟩ | ⟨hbegins, -⟩ |
        ⟨-, piece, more, hp, hpiece, -⟩
      · rw [hc, decodeLossy_encodeChar_append]
        have := List.length_pos_iff.mpr (encodeChar_ne_nil c)
        rw [hc, List.length_append] at hn
        exact .char c (ih more.length (by omega) more rfl)
      · have hsubpart := hbegins.maximalSubpart (List.cons_ne_nil b rest)
        have hdecode := hsubpart.decodeLossy_append
        have hstep := LossyDecoding.subpart hsubpart .nil
        rw [List.append_nil] at hdecode hstep
        rw [hdecode]
        exact hstep
      · rw [hp, hpiece.decodeLossy_append]
        have := List.length_pos_iff.mpr hpiece.ne_nil
        rw [hp, List.length_append] at hn
        exact .subpart hpiece (ih more.length (by omega) more rfl)

/-- Decoding gives the only lossy decoding there is. -/
theorem lossyDecoding_iff {bytes : Bytes} {text : Text} :
    LossyDecoding bytes text ↔ text = decodeLossy bytes := by
  constructor
  · intro h
    induction h with
    | nil => rfl
    | char c _ ih => rw [decodeLossy_encodeChar_append, ih]
    | subpart hpiece _ ih => rw [hpiece.decodeLossy_append, ih]
  · rintro rfl
    exact lossyDecoding_decodeLossy bytes

/-! ## Decoding without replacements -/

/-- Reading goes on behind the encoding of a character. -/
theorem decodeFrom?_encodeChar_append (fuel : Nat) (c : Char) (rest : Bytes) :
    decodeFrom? (fuel + 1) (encodeChar c ++ rest) = (decodeFrom? fuel rest).map (c :: ·) := by
  cases h : encodeChar c ++ rest with
  | nil => exact absurd (List.append_eq_nil_iff.mp h).1 (encodeChar_ne_nil c)
  | cons b tails =>
    rw [decodeFrom?, read_of_encodeChar h.symm]
    simp only [drop_pred_of_cons_eq (encodeChar_ne_nil c) h.symm]

/-- A text is read back from its bytes. -/
theorem decode?_encode (text : Text) : decode? (encode text) = some text := by
  have hfuel : ∀ fuel (text : Text), (encode text).length ≤ fuel →
      decodeFrom? fuel (encode text) = some text := by
    intro fuel text h
    induction text generalizing fuel with
    | nil => cases fuel <;> rfl
    | cons c text ih =>
      have hpos := List.length_pos_iff.mpr (encodeChar_ne_nil c)
      rw [encode, List.flatMap_cons, ← encode] at h ⊢
      rw [List.length_append] at h
      cases fuel with
      | zero => omega
      | succ fuel => rw [decodeFrom?_encodeChar_append, ih fuel (by omega), Option.map_some]
  exact hfuel _ text (Nat.le_refl _)

end Utf8

end ScratchEditor

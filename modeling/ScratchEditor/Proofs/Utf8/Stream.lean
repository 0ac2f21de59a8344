import ScratchEditor.Proofs.Utf8.Lossy

/-!
# Decoding a stream

A stream is cut where the pieces happen to end.  Looking at the last three bytes
is enough to find a character that such a cut divides: its bytes are held back, and
no other cut changes how the bytes on its two sides are decoded.

Main definitions:

- `Stream.feed` and `Stream.after`: the stream behind one piece and behind some.

Main results:

- `cutLength_cases`: what is held back is a beginning of a character, and nothing
  is held back only where no character is divided.
- `decodeLossy_append`: decoding distributes over a cut that divides no character.
- `Stream.lossyDecoding_texts`: the texts of a stream are the decoding of all its
  bytes, and less than a character ever waits.
-/

namespace ScratchEditor

namespace Utf8

/-! ## Beginnings of characters at the end of bytes -/

/-- A shorter beginning of a character is one too. -/
theorem BeginsChar.left {bytes more : Bytes} (h : BeginsChar (bytes ++ more)) :
    BeginsChar bytes := by
  obtain ⟨c, hc, hne⟩ := h
  refine ⟨c, (List.prefix_append bytes more).trans hc, ?_⟩
  intro heq
  have hlength := hc.length_le
  rw [← heq, List.length_append] at hlength
  have hnil : more = [] := List.eq_nil_of_length_eq_zero (by omega)
  exact hne (by rw [hnil, List.append_nil, heq])

/-- The bytes that continue a character are continuation bytes. -/
theorem Continues.isTail {low high : Nat} {tails : Bytes} (hlow : 0x80 ≤ low)
    (hhigh : high ≤ 0xBF) (h : Continues low high tails) : ∀ x ∈ tails, isTail x = true := by
  induction tails generalizing low high with
  | nil => simp
  | cons b tails ih =>
    intro x hx
    rcases List.mem_cons.mp hx with rfl | hx
    · have := h.1
      simp only [Utf8.isTail, Bool.and_eq_true, decide_eq_true_eq]
      omega
    · exact ih (by decide) (by decide) h.2 x hx

/-- The beginning of a character is a byte that is no continuation byte and at most two that are. -/
theorem BeginsChar.shape {b : UInt8} {tails : Bytes} (h : BeginsChar (b :: tails)) :
    isTail b = false ∧ (∀ x ∈ tails, isTail x = true) ∧ tails.length ≤ 2 := by
  have hlength := h.length_le
  obtain ⟨lead, hlead, -, htails⟩ := beginsChar_cons_iff.mp h
  obtain ⟨-, -, hlow, -, hhigh⟩ := lead?_bounds hlead
  refine ⟨?_, htails.isTail hlow hhigh, by rw [List.length_cons] at hlength; omega⟩
  by_contra htail
  simp only [Utf8.isTail, Bool.not_eq_false, Bool.and_eq_true, decide_eq_true_eq] at htail
  rw [lead?_eq_none (Or.inl (by omega))] at hlead
  exact absurd hlead (by simp)

/-- Reading runs out of bytes exactly inside a character. -/
theorem read_eq_cut_iff {b : UInt8} {rest : Bytes} :
    read b rest = .cut ↔ BeginsChar (b :: rest) := by
  rcases read_cases b rest with ⟨c, more, hc, hread⟩ | ⟨hbegins, hread⟩ |
    ⟨hbegins, piece, more, -, -, hread⟩
  · refine iff_of_false (by rw [hread]; simp) (not_beginsChar_of_prefix_encodeChar (c := c) ?_)
    exact ⟨more, hc.symm⟩
  · exact iff_of_true hread hbegins
  · exact iff_of_false (by rw [hread]; simp) hbegins

/-! ## Cuts that divide no character -/

/-- Behind its first byte the encoding of a character has continuation bytes only. -/
theorem isTail_of_encodeChar_eq_cons {c : Char} {b : UInt8} {tails : Bytes}
    (h : encodeChar c = b :: tails) : ∀ x ∈ tails, isTail x = true := by
  rcases exists_encodeChar_eq_cons_iff.mp ⟨c, h⟩ with ⟨-, rfl⟩ | ⟨lead, hlead, -, htails⟩
  · simp
  · obtain ⟨-, -, hlow, -, hhigh⟩ := lead?_bounds hlead
    exact htails.isTail hlow hhigh

/-- A prefix of two that have a third in common ends inside it or goes on with what follows it. -/
theorem prefix_append_cons_cases {first others piece : Bytes} {next : UInt8}
    (h : piece <+: first ++ next :: others) : piece <+: first ∨ first ++ [next] <+: piece := by
  rcases Nat.lt_or_ge first.length piece.length with hlong | hshort
  · refine Or.inr (List.prefix_of_prefix_length_le ⟨others, ?_⟩ h ?_)
    · rw [List.append_assoc, List.singleton_append]
    · rw [List.length_append, List.length_singleton]
      omega
  · exact Or.inl (List.prefix_of_prefix_length_le h (List.prefix_append first _) hshort)

/-- A beginning of a character is a maximal subpart before a byte that begins another one. -/
theorem BeginsChar.maximalSubpart_cons {bytes others : Bytes} {next : UInt8} (hne : bytes ≠ [])
    (h : BeginsChar bytes) (hnext : isTail next = false) :
    MaximalSubpart bytes (next :: others) := by
  have hstop : ∀ c, ¬ bytes ++ [next] <+: encodeChar c := by
    rintro c ⟨more, hmore⟩
    cases bytes with
    | nil => exact hne rfl
    | cons b tails =>
      have htail := isTail_of_encodeChar_eq_cons hmore.symm next (by simp)
      rw [hnext] at htail
      exact Bool.false_ne_true htail
  constructor
  · intro c hc
    rcases prefix_append_cons_cases hc with hinside | hgoes
    · exact not_beginsChar_of_prefix_encodeChar hinside h
    · exact hstop c hgoes
  · exact Or.inr ⟨hne, h⟩
  · rintro longer hlonger ⟨c, hc, -⟩
    rcases prefix_append_cons_cases hlonger with hinside | hgoes
    · exact hinside.length_le
    · exact absurd (hgoes.trans hc) (hstop c)

/-- A maximal subpart of bytes that begin no character remains one when more bytes follow. -/
theorem MaximalSubpart.append {piece rest : Bytes} (h : MaximalSubpart piece rest)
    (hnot : ¬ BeginsChar (piece ++ rest)) (more : Bytes) : MaximalSubpart piece (rest ++ more) := by
  cases more with
  | nil =>
    rw [List.append_nil]
    exact h
  | cons next others =>
    rw [← List.append_nil (rest ++ next :: others)]
    constructor
    · intro c hc
      rw [List.append_nil, ← List.append_assoc] at hc
      rcases prefix_append_cons_cases hc with hinside | hgoes
      · exact h.not_encodeChar c hinside
      · obtain ⟨tails, htails⟩ := hgoes
        refine hnot ⟨c, ⟨next :: tails, by rw [← htails]; simp⟩, ?_⟩
        intro heq
        have := congrArg List.length (htails.trans heq.symm)
        simp at this
    · exact h.initial
    · intro longer hlonger hbegins
      rw [List.append_nil, ← List.append_assoc] at hlonger
      rcases prefix_append_cons_cases hlonger with hinside | hgoes
      · exact h.longest longer hinside hbegins
      · obtain ⟨tails, rfl⟩ := hgoes
        exact absurd hbegins.left.left hnot

/-- Decoding distributes over a cut unless a character goes on behind it. -/
theorem decodeLossy_append {bytes more : Bytes}
    (hcut : ∀ first last next, bytes = first ++ last → last ≠ [] → BeginsChar last →
      more.head? = some next → isTail next = false) :
    decodeLossy (bytes ++ more) = decodeLossy bytes ++ decodeLossy more := by
  induction hn : bytes.length using Nat.strongRecOn generalizing bytes with
  | ind n ih =>
    cases bytes with
    | nil => rfl
    | cons b rest =>
      have hlater : ∀ piece others, piece ≠ [] → b :: rest = piece ++ others →
          decodeLossy (others ++ more) = decodeLossy others ++ decodeLossy more := by
        intro piece others hpiece heq
        have hpos := List.length_pos_iff.mpr hpiece
        rw [heq, List.length_append] at hn
        refine ih others.length (by omega) ?_ rfl
        intro first last next hothers
        exact hcut (piece ++ first) last next (by rw [heq, hothers, List.append_assoc])
      rcases read_cases b rest with ⟨c, others, hc, -⟩ | ⟨hbegins, -⟩ |
        ⟨hnot, piece, others, hp, hpiece, -⟩
      · rw [hc, List.append_assoc, decodeLossy_encodeChar_append, decodeLossy_encodeChar_append,
          hlater _ _ (encodeChar_ne_nil c) hc, List.cons_append]
      · have hwhole := (hbegins.maximalSubpart (List.cons_ne_nil b rest)).decodeLossy_append
        rw [List.append_nil, decodeLossy_nil] at hwhole
        rw [hwhole]
        cases more with
        | nil => rw [List.append_nil, hwhole, decodeLossy_nil, List.append_nil]
        | cons next others =>
          have hnext : isTail next = false :=
            hcut [] (b :: rest) next rfl (List.cons_ne_nil b rest) hbegins rfl
          exact (hbegins.maximalSubpart_cons (List.cons_ne_nil b rest) hnext).decodeLossy_append
      · rw [hp] at hnot
        rw [hp, List.append_assoc, (hpiece.append hnot more).decodeLossy_append,
          hpiece.decodeLossy_append, hlater _ _ hpiece.ne_nil hp, List.cons_append]

/-! ## What is held back -/

/-- Looking from the end for a byte that is no continuation byte finds the last one, or none. -/
theorem cutLengthFrom_cases (before after : Bytes) :
    (∃ tails b front, before = tails ++ b :: front ∧ isTail b = false ∧
      (∀ x ∈ tails, isTail x = true) ∧ cutLengthFrom before after =
        match read b (tails.reverse ++ after) with
        | .cut => tails.length + after.length + 1
        | _ => 0) ∨
    ((∀ x ∈ before, isTail x = true) ∧ cutLengthFrom before after = 0) := by
  induction before generalizing after with
  | nil => exact Or.inr ⟨by simp, rfl⟩
  | cons b before ih =>
    cases hb : isTail b with
    | false =>
      refine Or.inl ⟨[], b, before, rfl, hb, by simp, ?_⟩
      simp only [cutLengthFrom, hb, List.reverse_nil, List.nil_append]
      cases read b after <;> simp
    | true =>
      have hstep : cutLengthFrom (b :: before) after = cutLengthFrom before (b :: after) := by
        simp [cutLengthFrom, hb]
      rcases ih (b :: after) with ⟨tails, x, front, hbefore, hx, htails, hcut⟩ | ⟨hall, hcut⟩
      · refine Or.inl ⟨b :: tails, x, front, by rw [hbefore]; rfl, hx, ?_, ?_⟩
        · intro y hy
          rcases List.mem_cons.mp hy with rfl | hy
          · exact hb
          · exact htails y hy
        · rw [hstep, hcut, List.reverse_cons, List.append_assoc, List.singleton_append,
            List.length_cons, List.length_cons]
          cases read x (tails.reverse ++ b :: after) <;> simp
          omega
      · refine Or.inr ⟨?_, by rw [hstep, hcut]⟩
        intro y hy
        rcases List.mem_cons.mp hy with rfl | hy
        · exact hb
        · exact hall y hy

/-- Two ends of the same bytes that begin with their only byte that is no continuation byte are
the same. -/
theorem lastLead_unique {front front' tails tails' : Bytes} {b b' : UInt8}
    (heq : front ++ b :: tails = front' ++ b' :: tails') (hb : isTail b = false)
    (hb' : isTail b' = false) (htails : ∀ x ∈ tails, isTail x = true)
    (htails' : ∀ x ∈ tails', isTail x = true) : b = b' ∧ tails = tails' := by
  rcases List.append_eq_append_iff.mp heq with ⟨more, hfront, hmore⟩ | ⟨more, hfront, hmore⟩
  · cases more with
    | nil => exact ⟨(List.cons.inj hmore).1, (List.cons.inj hmore).2⟩
    | cons y more =>
      have hmem := htails b' (by rw [(List.cons.inj hmore).2]; simp)
      rw [hb'] at hmem
      exact absurd hmem Bool.false_ne_true
  · cases more with
    | nil => exact ⟨(List.cons.inj hmore).1.symm, (List.cons.inj hmore).2.symm⟩
    | cons y more =>
      have hmem := htails' b (by rw [(List.cons.inj hmore).2]; simp)
      rw [hb] at hmem
      exact absurd hmem Bool.false_ne_true

/-- What is held back is the beginning of a character at the end of the bytes, and nothing is held
back only where no such beginning stands. -/
theorem cutLength_cases (bytes : Bytes) :
    (∃ front b tails, bytes = front ++ b :: tails ∧ BeginsChar (b :: tails) ∧
      cutLength bytes = tails.length + 1) ∨
    (cutLength bytes = 0 ∧
      ∀ front last, bytes = front ++ last → last ≠ [] → ¬ BeginsChar last) := by
  have hlook := cutLengthFrom_cases (bytes.reverse.take 3) []
  rw [← cutLength] at hlook
  rcases hlook with ⟨tails, b, front, hlast, hb, htails, hcut⟩ | ⟨hall, hcut⟩
  · have hbytes :
        bytes = (bytes.reverse.drop 3).reverse ++ front.reverse ++ b :: tails.reverse := by
      have hjoin := List.take_append_drop 3 bytes.reverse
      rw [hlast] at hjoin
      generalize bytes.reverse.drop 3 = others at hjoin
      rw [← List.reverse_reverse bytes, ← hjoin]
      simp
    rw [List.append_nil] at hcut
    by_cases hread : read b tails.reverse = .cut
    · refine Or.inl ⟨_, b, tails.reverse, hbytes, read_eq_cut_iff.mp hread, ?_⟩
      rw [hcut, hread, List.length_reverse, List.length_nil]
    · refine Or.inr ⟨?_, ?_⟩
      · rw [hcut]
        cases hr : read b tails.reverse with
        | char c width => rfl
        | broken width => rfl
        | cut => exact absurd hr hread
      · intro front' last heq hne hbegins
        cases last with
        | nil => exact hne rfl
        | cons b' tails' =>
          obtain ⟨hb', htails', -⟩ := hbegins.shape
          obtain ⟨rfl, rfl⟩ := lastLead_unique (hbytes.symm.trans heq) hb hb'
            (fun x hx => htails x (List.mem_reverse.mp hx)) htails'
          exact hread (read_eq_cut_iff.mpr hbegins)
  · refine Or.inr ⟨hcut, ?_⟩
    intro front last heq hne hbegins
    cases last with
    | nil => exact hne rfl
    | cons b tails =>
      obtain ⟨hb, -, hlength⟩ := hbegins.shape
      have hmem : b ∈ bytes.reverse.take 3 := by
        obtain ⟨n, hn⟩ : ∃ n, 3 - tails.length = n + 1 := ⟨2 - tails.length, by omega⟩
        rw [heq, List.reverse_append, List.reverse_cons, List.append_assoc, List.take_append,
          List.length_reverse, hn]
        simp
      rw [hall b hmem] at hb
      exact absurd hb.symm Bool.false_ne_true

/-! ## Streams -/

namespace Stream

/-- The stream behind one more piece, its text taken. -/
def feed (stream : Stream) (piece : Bytes) : Stream :=
  (stream.push piece).take.2

/-- The stream behind some pieces, their texts taken. -/
def after (stream : Stream) (pieces : List Bytes) : Stream :=
  pieces.foldl feed stream

theorem texts_nil (stream : Stream) : stream.texts [] = [stream.finish] :=
  rfl

theorem texts_cons (stream : Stream) (piece : Bytes) (rest : List Bytes) :
    stream.texts (piece :: rest) =
      (stream.push piece).take.1 :: (stream.feed piece).texts rest :=
  rfl

/-- What waits behind a piece is nothing or the beginning of a character. -/
theorem waiting_take (stream : Stream) :
    stream.take.2.waiting = [] ∨ BeginsChar stream.take.2.waiting := by
  unfold take
  rcases cutLength_cases stream.waiting with ⟨front, b, tails, hbytes, hbegins, hcut⟩ | ⟨hcut, -⟩
  · right
    have hkeep : stream.waiting.length - cutLength stream.waiting = front.length := by
      rw [hcut, hbytes, List.length_append, List.length_cons]
      omega
    dsimp only
    rw [hkeep, hbytes, List.drop_left]
    exact hbegins
  · left
    dsimp only
    rw [hcut, Nat.sub_zero, List.drop_length]

/-- Taking a text decodes what does not wait, whatever comes behind it. -/
theorem decodeLossy_take (stream : Stream) (more : Bytes) :
    decodeLossy (stream.waiting ++ more) =
      stream.take.1 ++ decodeLossy (stream.take.2.waiting ++ more) := by
  unfold take
  dsimp only
  rcases cutLength_cases stream.waiting with ⟨front, b, tails, hbytes, hbegins, hcut⟩ |
    ⟨hcut, hclean⟩
  · have hkeep : stream.waiting.length - cutLength stream.waiting = front.length := by
      rw [hcut, hbytes, List.length_append, List.length_cons]
      omega
    rw [hkeep, hbytes, List.take_left, List.drop_left, List.append_assoc]
    apply decodeLossy_append
    intro first last next _ _ _ hnext
    obtain rfl := Option.some.inj hnext
    exact hbegins.shape.1
  · rw [hcut, Nat.sub_zero, List.take_length, List.drop_length, List.nil_append]
    apply decodeLossy_append
    intro first last next hfirst hne hbegins
    exact absurd hbegins (hclean first last hfirst hne)

/-- The texts of a stream are the decoding of what waits and of all that comes. -/
theorem flatten_texts (stream : Stream) (pieces : List Bytes) :
    (stream.texts pieces).flatten = decodeLossy (stream.waiting ++ pieces.flatten) := by
  induction pieces generalizing stream with
  | nil => simp [texts_nil, finish]
  | cons piece rest ih =>
    calc (stream.texts (piece :: rest)).flatten
        = (stream.push piece).take.1 ++
            decodeLossy ((stream.push piece).take.2.waiting ++ rest.flatten) := by
          rw [texts_cons, List.flatten_cons, ih, feed]
      _ = decodeLossy ((stream.push piece).waiting ++ rest.flatten) :=
          (decodeLossy_take (stream.push piece) rest.flatten).symm
      _ = decodeLossy (stream.waiting ++ (piece :: rest).flatten) := by
          rw [waiting_push, List.append_assoc, List.flatten_cons]

/-- If less than a character waits, less than one waits behind any further pieces. -/
theorem waiting_after {stream : Stream} (h : stream.waiting = [] ∨ BeginsChar stream.waiting)
    (pieces : List Bytes) :
    (stream.after pieces).waiting = [] ∨ BeginsChar (stream.after pieces).waiting := by
  induction pieces generalizing stream with
  | nil => exact h
  | cons piece rest ih => exact ih (waiting_take (stream.push piece))

/--
However bytes are cut into pieces, the texts of the stream put together are their
one lossy decoding, and what waits behind each piece is nothing or a beginning of a
character that goes on, of at most three bytes.
-/
theorem lossyDecoding_texts (pieces : List Bytes) :
    (empty.texts pieces).flatten = decodeLossy pieces.flatten ∧
      LossyDecoding pieces.flatten (empty.texts pieces).flatten ∧
      ∀ n, (empty.after (pieces.take n)).waiting = [] ∨
        (BeginsChar (empty.after (pieces.take n)).waiting ∧
          (empty.after (pieces.take n)).waiting.length ≤ 3) := by
  have hdecode : (empty.texts pieces).flatten = decodeLossy pieces.flatten := by
    rw [flatten_texts]
    rfl
  refine ⟨hdecode, lossyDecoding_iff.mpr hdecode, ?_⟩
  intro n
  have hempty : empty.waiting = [] ∨ BeginsChar empty.waiting := Or.inl rfl
  rcases waiting_after hempty (pieces.take n) with hnil | hbegins
  · exact Or.inl hnil
  · exact Or.inr ⟨hbegins, hbegins.length_le⟩

end Stream

end Utf8

end ScratchEditor

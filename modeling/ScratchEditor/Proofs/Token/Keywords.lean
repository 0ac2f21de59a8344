import ScratchEditor.Proofs.Pattern.Reads
import ScratchEditor.Token.Category

/-!
# The pattern of keywords

Escaping makes every character of a keyword stand for itself, so the pattern of some
keywords is a choice of the keywords between two edges of words.

Main definitions:

- `Node.literal` and `Node.anyKeyword`: the trees of a keyword and of some keywords.

Main results:

- `Pattern.read_keywordPattern`: what the pattern of some keywords is read as.
-/

namespace ScratchEditor

/-- Matches exactly a text. -/
def Node.literal (text : Text) : Node :=
  .sequence (text.map fun c => .char (.only c))

/-- Matches the first of some keywords that stands here as a whole word. -/
def Node.anyKeyword (keywords : List Text) : Node :=
  .choice [.sequence [.anchor .wordEdge, .choice (keywords.map literal), .anchor .wordEdge]]

namespace PatternReader

variable {reader : PatternReader}

/-- Without flags every character counts. -/
theorem readsOne_of_step (hflags : reader.flags = .none) {c : Char} {rest : Text}
    {reader' : PatternReader} (hrest : reader.rest = c :: rest)
    (hstep : reader.step c rest = .ok reader') : ReadsOne reader reader' := by
  refine ⟨c, rest, ?_, hstep⟩
  rw [hflags, hrest]
  rfl

/-- A character that means something in a pattern is read behind a backslash. -/
theorem readEscape_of_isMeta {c : Char} (h : isMeta c = true) (rest : Text) :
    readEscape .none (c :: rest) = .ok (.literal c, rest) := by
  have hmeta : "\\.+*?()|[]\x7b\x7d^$#&-~".toList =
      ['\\', '.', '+', '*', '?', '(', ')', '|', '[', ']', '{', '}', '^', '$', '#', '&', '-', '~'] :=
    rfl
  unfold isMeta at h
  rw [List.contains_iff_mem, hmeta] at h
  simp only [List.mem_cons, List.not_mem_nil, or_false] at h
  rcases h with rfl | rfl | rfl | rfl | rfl | rfl | rfl | rfl | rfl | rfl | rfl | rfl | rfl | rfl |
    rfl | rfl | rfl | rfl <;> rfl

/-- A backslash reads an escape. -/
theorem step_escape {text rest : Text} {atom : Atom}
    (h : readEscape reader.flags text = .ok (atom, rest)) :
    reader.step '\\' text = .ok (reader.push (atomNode reader.flags atom) rest) := by
  have hstep : reader.step '\\' text = (readEscape reader.flags text >>= fun part =>
      .ok (reader.push (atomNode reader.flags part.1) part.2)) := rfl
  rw [hstep, h]
  rfl

/-- A character that means nothing in a pattern is read as itself. -/
theorem step_of_not_isMeta {c : Char} (h : isMeta c = false) (rest : Text) :
    reader.step c rest = .ok (reader.push (atomNode reader.flags (.literal c)) rest) := by
  have hne (meta' : Char) (hmeta : isMeta meta' = true) : c ≠ meta' := by
    rintro rfl
    rw [h] at hmeta
    cases hmeta
  unfold step
  rw [if_neg (hne '(' rfl), if_neg (hne ')' rfl), if_neg (hne '|' rfl), if_neg (hne '[' rfl),
    if_neg (hne '?' rfl), if_neg (hne '*' rfl), if_neg (hne '+' rfl), if_neg (hne '{' rfl),
    if_neg (hne '\\' rfl), if_neg (hne '.' rfl), if_neg (hne '^' rfl), if_neg (hne '$' rfl)]

/-- The level with the characters of a text as further items. -/
def pushText (level : PatternLevel) (text : Text) : PatternLevel :=
  text.foldl (fun level c => level.push (.node (.char (.only c)))) level

/-- An escaped text is read one character after the other. -/
theorem reads_escape (hflags : reader.flags = .none) (text rest : Text) :
    Reads { reader with rest := Pattern.escape text ++ rest }
      { reader with level := pushText reader.level text, rest := rest } := by
  induction text generalizing reader with
  | nil => exact Relation.ReflTransGen.refl
  | cons c text ih =>
    have hnode : atomNode reader.flags (.literal c) = .char (.only c) := by
      rw [hflags]
      rfl
    have hlater : Reads
        ({ reader with rest := Pattern.escape (c :: text) ++ rest }.push (.char (.only c))
          (Pattern.escape text ++ rest))
        { reader with level := pushText reader.level (c :: text), rest := rest } :=
      @ih { reader with level := reader.level.push (.node (.char (.only c))) } hflags
    refine Relation.ReflTransGen.head ?_ hlater
    cases hmeta : isMeta c with
    | true =>
      have htext : Pattern.escape (c :: text) ++ rest =
          '\\' :: (c :: (Pattern.escape text ++ rest)) := by
        unfold Pattern.escape
        rw [List.flatMap_cons, if_pos hmeta]
        rfl
      refine readsOne_of_step (by exact hflags) htext ?_
      have hescape : readEscape reader.flags (c :: (Pattern.escape text ++ rest)) =
          .ok (.literal c, Pattern.escape text ++ rest) := by
        rw [hflags]
        exact readEscape_of_isMeta hmeta _
      rw [← hnode]
      exact step_escape hescape
    | false =>
      have hne : ¬ isMeta c = true := by
        rw [hmeta]
        exact Bool.false_ne_true
      have htext : Pattern.escape (c :: text) ++ rest = c :: (Pattern.escape text ++ rest) := by
        unfold Pattern.escape
        rw [List.flatMap_cons, if_neg hne]
        rfl
      refine readsOne_of_step (by exact hflags) htext ?_
      rw [step_of_not_isMeta hmeta, ← hnode]

/-- The tree of an alternative of which exactly a text has been read. -/
theorem current_pushText (alternatives : List Node) (text : Text) :
    (pushText ⟨alternatives, []⟩ text).current = .literal text ∧
      (pushText ⟨alternatives, []⟩ text).alternatives = alternatives := by
  have hitems : ∀ level : PatternLevel, pushText level text =
      ⟨level.alternatives, (text.map fun c => .node (.char (.only c))).reverse ++ level.items⟩ := by
    induction text with
    | nil => exact fun _ => rfl
    | cons c text ih =>
      intro level
      have hcons : pushText level (c :: text) =
          pushText (level.push (.node (.char (.only c)))) text := rfl
      rw [hcons, ih, List.map_cons, List.reverse_cons, List.append_assoc]
      rfl
  rw [hitems]
  refine ⟨?_, rfl⟩
  unfold PatternLevel.current Node.literal
  rw [List.append_nil, List.reverse_reverse, List.map_map]
  rfl

/-- Escaped texts with bars between them are read as alternatives. -/
theorem reads_alternatives (hflags : reader.flags = .none) {texts : List Text} (hne : texts ≠ [])
    (alternatives : List Node) (rest : Text) :
    ∃ level : PatternLevel,
      Reads
        { reader with
          level := ⟨alternatives, []⟩
          rest := joinAlternatives (texts.map Pattern.escape) ++ rest }
        { reader with level := level, rest := rest } ∧
      level.finish = .choice (alternatives.reverse ++ texts.map Node.literal) := by
  induction texts generalizing alternatives with
  | nil => exact absurd rfl hne
  | cons text texts ih =>
    obtain ⟨hcurrent, hbefore⟩ := current_pushText alternatives text
    cases texts with
    | nil =>
      refine ⟨pushText ⟨alternatives, []⟩ text, ?_, ?_⟩
      · exact @reads_escape { reader with level := ⟨alternatives, []⟩ } hflags text rest
      · unfold PatternLevel.finish
        rw [hcurrent, hbefore]
        rfl
    | cons second texts =>
      obtain ⟨level, hreads, hfinish⟩ := ih (List.cons_ne_nil _ _) (.literal text :: alternatives)
      refine ⟨level, ?_, ?_⟩
      · have hjoin : joinAlternatives ((text :: second :: texts).map Pattern.escape) ++ rest =
            Pattern.escape text ++
              ('|' :: (joinAlternatives ((second :: texts).map Pattern.escape) ++ rest)) := by
          have hcons : joinAlternatives ((text :: second :: texts).map Pattern.escape) =
              Pattern.escape text ++
                '|' :: joinAlternatives ((second :: texts).map Pattern.escape) := rfl
          rw [hcons, List.append_assoc]
          rfl
        rw [hjoin]
        refine (@reads_escape { reader with level := ⟨alternatives, []⟩ } hflags text _).trans ?_
        refine Relation.ReflTransGen.head (readsOne_of_step (by exact hflags) rfl rfl) ?_
        have hnext : (pushText ⟨alternatives, []⟩ text).nextAlternative =
            ⟨.literal text :: alternatives, []⟩ := by
          unfold PatternLevel.nextAlternative
          rw [hcurrent, hbefore]
        dsimp only
        rw [hnext]
        exact hreads
      · rw [hfinish, List.reverse_cons, List.append_assoc]
        rfl

end PatternReader

/-- The pattern of some keywords is read as a choice of them between edges of words. -/
theorem Pattern.read_keywordPattern {keywords : List Text} {pattern : Text}
    (h : keywordPattern keywords = some pattern) :
    read pattern = .ok ⟨.anyKeyword keywords, []⟩ := by
  have hne : keywords ≠ [] := by
    rintro rfl
    cases h
  have hpattern : pattern = '\\' :: 'b' :: '(' :: '?' :: ':' ::
      (joinAlternatives (keywords.map escape) ++ [')', '\\', 'b']) := by
    unfold keywordPattern at h
    rw [if_neg (by rw [List.isEmpty_iff]; exact hne)] at h
    rw [← Option.some.inj h]
    rfl
  obtain ⟨level, hreads, hfinish⟩ := @PatternReader.reads_alternatives
    { PatternReader.start [] with opened := [⟨none, .none, ⟨[], [.node (.anchor .wordEdge)]⟩⟩] }
    rfl keywords hne [] [')', '\\', 'b']
  have hopen : PatternReader.Reads (.start pattern)
      { PatternReader.start [] with
        opened := [⟨none, .none, ⟨[], [.node (.anchor .wordEdge)]⟩⟩]
        level := ⟨[], []⟩
        rest := joinAlternatives (keywords.map escape) ++ [')', '\\', 'b'] } := by
    rw [hpattern]
    refine Relation.ReflTransGen.head (PatternReader.readsOne_of_step rfl rfl rfl) ?_
    exact Relation.ReflTransGen.single (PatternReader.readsOne_of_step rfl rfl rfl)
  have hclose : PatternReader.Reads
      { PatternReader.start [] with
        opened := [⟨none, .none, ⟨[], [.node (.anchor .wordEdge)]⟩⟩]
        level := level
        rest := [')', '\\', 'b'] }
      { PatternReader.start [] with
        level := ⟨[], [.node (.anchor .wordEdge), .node level.finish,
          .node (.anchor .wordEdge)]⟩ } := by
    refine Relation.ReflTransGen.head (PatternReader.readsOne_of_step rfl rfl rfl) ?_
    exact Relation.ReflTransGen.single (PatternReader.readsOne_of_step rfl rfl rfl)
  refine read_eq_ok_iff.mpr ⟨_, (hopen.trans hreads).trans hclose, rfl, rfl, ?_⟩
  have hlevel : PatternLevel.finish ⟨[], [.node (.anchor .wordEdge), .node level.finish,
      .node (.anchor .wordEdge)]⟩ = .anyKeyword keywords := by
    have hsequence : PatternLevel.finish ⟨[], [.node (.anchor .wordEdge), .node level.finish,
        .node (.anchor .wordEdge)]⟩ =
        .choice [.sequence [.anchor .wordEdge, level.finish, .anchor .wordEdge]] := rfl
    rw [hsequence, hfinish]
    rfl
  unfold ofReader
  rw [hlevel]
  rfl

end ScratchEditor

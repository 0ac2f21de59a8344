import Mathlib.Logic.Relation
import ScratchEditor.Proofs.Pattern.Inside

/-!
# Reading as a relation

Reading a pattern is a run of steps, each of which takes a character.  A pattern that
can be read alone is read in the same way between the brackets of a group, unless the
whole cannot be read at all.

Main definitions:

- `PatternReader.Reads` and `PatternReader.Final`: runs of steps, and where they end.
- `PatternReader.Stuck`: no run comes to an end with every group closed.
- `Pattern.Alone`: how a pattern is read by itself.

Main results:

- `Pattern.read_eq_ok_iff`: a pattern is read by a run that comes to an end.
- `Pattern.Alone.reads_group`: a pattern between the brackets of a group.
-/

namespace ScratchEditor

namespace PatternReader

/-- One step of reading, from the next character that counts. -/
def ReadsOne (reader reader' : PatternReader) : Prop :=
  ∃ c rest, reader.flags.skip reader.rest = c :: rest ∧ reader.step c rest = .ok reader'

/-- Any number of steps of reading. -/
def Reads : PatternReader → PatternReader → Prop :=
  Relation.ReflTransGen ReadsOne

/-- Nothing that counts is left. -/
def Final (reader : PatternReader) : Prop :=
  reader.flags.skip reader.rest = []

/-- Reading does not come to an end at which every group is closed. -/
def Stuck (reader : PatternReader) : Prop :=
  ∀ reader', Reads reader reader' → Final reader' → reader'.opened ≠ []

/-- A step takes at least one character. -/
theorem ReadsOne.length_lt {reader reader' : PatternReader} (h : ReadsOne reader reader') :
    reader'.rest.length < reader.rest.length := by
  obtain ⟨c, rest, hskip, hstep⟩ := h
  have hle := (inside_step c reader rest reader' hstep).1
  have hlength := length_skip_le reader.flags reader.rest
  rw [hskip, List.length_cons] at hlength
  omega

theorem ReadsOne.unique {reader a b : PatternReader} (ha : ReadsOne reader a)
    (hb : ReadsOne reader b) : a = b := by
  obtain ⟨c, rest, hskip, hstep⟩ := ha
  obtain ⟨c', rest', hskip', hstep'⟩ := hb
  rw [hskip] at hskip'
  obtain ⟨rfl, rfl⟩ := List.cons.inj hskip'
  rw [hstep] at hstep'
  exact Except.ok.inj hstep'

theorem Final.not_readsOne {reader reader' : PatternReader} (h : Final reader) :
    ¬ ReadsOne reader reader' := by
  rintro ⟨c, rest, hskip, -⟩
  unfold Final at h
  rw [h] at hskip
  cases hskip

/-- From where reading has come to an end it goes nowhere. -/
theorem Final.eq_of_reads {reader reader' : PatternReader} (h : Final reader)
    (hreads : Reads reader reader') : reader' = reader := by
  rcases Relation.ReflTransGen.cases_head hreads with heq | ⟨middle, hone, -⟩
  · exact heq.symm
  · exact absurd hone h.not_readsOne

/-- Two runs from one reader, the first of which has come to an end. -/
theorem Reads.continue {reader a b : PatternReader} (ha : Reads reader a) (hfinal : Final a)
    (hb : Reads reader b) : Reads b a := by
  induction hb with
  | refl => exact ha
  | tail _ hone ih =>
    rcases Relation.ReflTransGen.cases_head ih with heq | ⟨middle, hone', hreads⟩
    · rw [heq] at hone
      exact absurd hone hfinal.not_readsOne
    · rw [hone.unique hone']
      exact hreads

/-- Reading with enough fuel is a run that comes to an end. -/
theorem run_eq_ok_iff {fuel : Nat} {reader reader' : PatternReader}
    (hfuel : reader.rest.length < fuel) :
    run fuel reader = .ok reader' ↔ Reads reader reader' ∧ Final reader' := by
  induction fuel generalizing reader with
  | zero => omega
  | succ fuel ih =>
    rw [run]
    cases hskip : reader.flags.skip reader.rest with
    | nil =>
      have hfinal : Final reader := hskip
      constructor
      · intro h
        obtain rfl := Except.ok.inj h
        exact ⟨Relation.ReflTransGen.refl, hfinal⟩
      · rintro ⟨hreads, -⟩
        rw [hfinal.eq_of_reads hreads]
    | cons c rest =>
      have hnot : ¬ Final reader := by
        intro hfinal
        unfold Final at hfinal
        rw [hskip] at hfinal
        cases hfinal
      cases hstep : reader.step c rest with
      | error cause =>
        constructor
        · intro h
          simp only [hstep] at h
          cases h
        · rintro ⟨hreads, hfinal⟩
          rcases Relation.ReflTransGen.cases_head hreads with rfl | ⟨middle, hone, -⟩
          · exact absurd hfinal hnot
          · obtain ⟨c', rest', hskip', hstep'⟩ := hone
            rw [hskip] at hskip'
            obtain ⟨rfl, rfl⟩ := List.cons.inj hskip'
            rw [hstep] at hstep'
            cases hstep'
      | ok middle =>
        have hone : ReadsOne reader middle := ⟨c, rest, hskip, hstep⟩
        have hlt := hone.length_lt
        have hrun : (reader.step c rest >>= run fuel) = run fuel middle := by
          rw [hstep]
          rfl
        simp only [hstep] at hrun ⊢
        rw [hrun, ih (by omega)]
        constructor
        · rintro ⟨hreads, hfinal⟩
          exact ⟨Relation.ReflTransGen.head hone hreads, hfinal⟩
        · rintro ⟨hreads, hfinal⟩
          exact ⟨Reads.continue hreads hfinal (Relation.ReflTransGen.single hone), hfinal⟩

/-- A reader from which another one is reached is stuck if that one is. -/
theorem Stuck.of_reads {reader reader' : PatternReader} (h : Stuck reader')
    (hreads : Reads reader reader') : Stuck reader := by
  intro last hlast hfinal
  exact h last (Reads.continue hlast hfinal hreads) hfinal

/-- A reader at its end is stuck if a group is open. -/
theorem Final.stuck {reader : PatternReader} (h : Final reader) (hopened : reader.opened ≠ []) :
    Stuck reader := by
  intro last hlast _
  rw [h.eq_of_reads hlast]
  exact hopened

/-- A reader that fails at its next step is stuck. -/
theorem stuck_of_error {reader : PatternReader} {c : Char} {rest : Text} {cause : PatternError}
    (hskip : reader.flags.skip reader.rest = c :: rest)
    (hstep : reader.step c rest = .error cause) :
    Stuck reader := by
  intro last hlast hfinal
  rcases Relation.ReflTransGen.cases_head hlast with rfl | ⟨middle, hone, -⟩
  · unfold Final at hfinal
    rw [hskip] at hfinal
    cases hfinal
  · obtain ⟨c', rest', hskip', hstep'⟩ := hone
    rw [hskip] at hskip'
    obtain ⟨rfl, rfl⟩ := List.cons.inj hskip'
    rw [hstep] at hstep'
    cases hstep'

/-! ## Runs inside a group -/

theorem opened_within_ne_nil {outside : PatternReader} (hopened : outside.opened ≠ [])
    (reader : PatternReader) (more : Text) : (reader.within outside more).opened ≠ [] := by
  have heq : (reader.within outside more).opened =
      reader.opened.map (OpenGroup.shift outside.groupCount) ++ outside.opened := rfl
  rw [heq]
  simp [hopened]

/-- A reader without text is at its end. -/
theorem final_of_rest_eq_nil {reader : PatternReader} (hrest : reader.rest = []) :
    Final reader := by
  unfold Final
  rw [hrest]
  exact List.eq_nil_of_length_eq_zero (Nat.le_zero.mp (length_skip_le _ []))

theorem final_within_nil {reader : PatternReader} (hrest : reader.rest = [])
    (outside : PatternReader) : Final (reader.within outside []) := by
  apply final_of_rest_eq_nil
  have happend : (reader.within outside []).rest = reader.rest ++ [] := rfl
  rw [happend, hrest]
  rfl

/-- Reading begins inside a group as it begins alone. -/
theorem start_within {outside : PatternReader} (hflags : outside.flags = .none)
    (hlevel : outside.level = .empty) (text more : Text) :
    (start text).within outside more = { outside with rest := text ++ more } := by
  obtain ⟨rest, flags, level, opened, groupCount, names⟩ := outside
  dsimp only at hflags hlevel
  subst hflags hlevel
  have hcount : 0 + groupCount = groupCount := Nat.zero_add groupCount
  unfold within start
  dsimp only
  rw [hcount]
  rfl

/-- A run is the same inside a group, or nothing that ends with its bracket can be read. -/
theorem Reads.within {reader reader' : PatternReader} (h : Reads reader reader')
    {outside : PatternReader} (hopened : outside.opened ≠ []) :
    (∀ more, Reads (reader.within outside (')' :: more)) (reader'.within outside (')' :: more))) ∨
      Stuck (reader.within outside [')']) := by
  induction h using Relation.ReflTransGen.head_induction_on with
  | refl => exact Or.inl fun _ => Relation.ReflTransGen.refl
  | @head first middle hone _ ih =>
    obtain ⟨c, rest, hskip, hstep⟩ := hone
    have hskip' (more : Text) : (first.within outside (')' :: more)).flags.skip
        (first.within outside (')' :: more)).rest = c :: (rest ++ ')' :: more) := by
      have happend := skip_append (by rw [hskip]; exact List.cons_ne_nil c rest) more
      rw [hskip] at happend
      exact happend
    rcases (inside_step c first rest middle hstep).2 outside with
      hclean | ⟨hnil, htaken⟩ | hrepeated
    · have hone (more : Text) : ReadsOne (first.within outside (')' :: more))
          (middle.within outside (')' :: more)) := ⟨c, _, hskip' more, hclean more⟩
      rcases ih with hreads | hstuck
      · exact Or.inl fun more => Relation.ReflTransGen.head (hone more) (hreads more)
      · exact Or.inr (hstuck.of_reads (Relation.ReflTransGen.single (hone [])))
    · right
      have hone : ReadsOne (first.within outside [')']) (middle.within outside []) :=
        ⟨c, _, hskip' [], htaken⟩
      have hfinal := final_within_nil hnil outside
      exact (hfinal.stuck (opened_within_ne_nil hopened _ _)).of_reads
        (Relation.ReflTransGen.single hone)
    · exact Or.inr (stuck_of_error (hskip' []) (hrepeated []))

end PatternReader

/-! ## Patterns as a whole -/

namespace Pattern

/-- The pattern that a reader at its end has read. -/
def ofReader (reader : PatternReader) : Pattern :=
  ⟨reader.level.finish,
    reader.names.reverse.filter fun name => reader.level.finish.hasGroup name.2⟩

/-- A pattern is read by a run that comes to an end with every group closed. -/
theorem read_eq_ok_iff {text : Text} {pattern : Pattern} :
    read text = .ok pattern ↔ ∃ reader, PatternReader.Reads (.start text) reader ∧ reader.Final ∧
      reader.opened = [] ∧ pattern = ofReader reader := by
  have hfuel : (PatternReader.start text).rest.length < text.length + 1 := Nat.lt_succ_self _
  unfold read
  cases hrun : PatternReader.run (text.length + 1) (.start text) with
  | error cause =>
    constructor
    · intro h
      cases h
    · rintro ⟨reader, hreads, hfinal, -, -⟩
      rw [(PatternReader.run_eq_ok_iff hfuel).mpr ⟨hreads, hfinal⟩] at hrun
      cases hrun
  | ok reader =>
    obtain ⟨hreads, hfinal⟩ := (PatternReader.run_eq_ok_iff hfuel).mp hrun
    have hunique : ∀ reader', PatternReader.Reads (.start text) reader' → reader'.Final →
        reader' = reader := by
      intro reader' hreads' hfinal'
      have hrun' := (PatternReader.run_eq_ok_iff hfuel).mpr ⟨hreads', hfinal'⟩
      rw [hrun] at hrun'
      exact (Except.ok.inj hrun').symm
    simp only [bind, Except.bind]
    cases hopened : reader.opened with
    | nil =>
      constructor
      · intro h
        exact ⟨reader, hreads, hfinal, hopened, (Except.ok.inj h).symm⟩
      · rintro ⟨reader', hreads', hfinal', -, rfl⟩
        rw [hunique reader' hreads' hfinal']
        rfl
    | cons group outer =>
      constructor
      · intro h
        cases h
      · rintro ⟨reader', hreads', hfinal', hopened', -⟩
        rw [hunique reader' hreads' hfinal', hopened] at hopened'
        cases hopened'

/-- A pattern is accepted if it is read and has room. -/
theorem parse_eq_ok_iff {text : Text} {pattern : Pattern} :
    parse text = .ok pattern ↔ read text = .ok pattern ∧ pattern.hasRoom = true := by
  unfold parse
  cases read text with
  | error cause => simp [bind, Except.bind]
  | ok own =>
    by_cases hroom : own.hasRoom = true
    · have hparse : (Except.ok own >>= fun own => if own.hasRoom then pure own else
          throw .tooLarge : Except PatternError Pattern) = .ok own := if_pos hroom
      rw [hparse]
      exact ⟨fun h => ⟨h, Except.ok.inj h ▸ hroom⟩, And.left⟩
    · have hparse : (Except.ok own >>= fun own => if own.hasRoom then pure own else
          throw .tooLarge : Except PatternError Pattern) = .error .tooLarge := if_neg hroom
      rw [hparse]
      exact ⟨fun h => (nomatch h), fun h => absurd (Except.ok.inj h.1 ▸ h.2) hroom⟩

/-- A reader that has read a pattern by itself, up to the end. -/
structure Alone (text : Text) (reader : PatternReader) : Prop where
  reads : PatternReader.Reads (.start text) reader
  final : reader.Final
  opened : reader.opened = []

/-- The reader after a pattern that was read in a group, when the group is closed. -/
def closed (reader outside : PatternReader) (group : OpenGroup) (outer : List OpenGroup)
    (more : Text) : PatternReader where
  rest := more
  flags := group.flags
  level := group.level.push (.node (PatternReader.groupNode group.index
    (reader.level.finish.shift outside.groupCount)))
  opened := outer
  groupCount := reader.groupCount + outside.groupCount
  names := reader.names.map (fun name => (name.1, name.2 + outside.groupCount)) ++ outside.names

/--
Between the brackets of a group a pattern is read as it is read alone, whatever follows;
or it cannot even be read with nothing behind the bracket.
-/
theorem Alone.reads_group {text : Text} {reader : PatternReader} (halone : Alone text reader)
    (outside : PatternReader) {group : OpenGroup} {outer : List OpenGroup}
    (hflags : outside.flags = .none) (hlevel : outside.level = .empty)
    (hopened : outside.opened = group :: outer) :
    (∀ more, PatternReader.Reads { outside with rest := text ++ ')' :: more }
      (closed reader outside group outer more)) ∨
    PatternReader.Stuck { outside with rest := text ++ [')'] } := by
  have hne : outside.opened ≠ [] := by
    rw [hopened]
    exact List.cons_ne_nil _ _
  have hstart (more : Text) := PatternReader.start_within hflags hlevel text (')' :: more)
  rcases halone.reads.within hne with hreads | hstuck
  · have hopened' (more : Text) : (reader.within outside more).opened = group :: outer := by
      have heq : (reader.within outside more).opened =
          reader.opened.map (OpenGroup.shift outside.groupCount) ++ outside.opened := rfl
      rw [heq, halone.opened, hopened]
      rfl
    have hfinal : reader.flags.skip reader.rest = [] := halone.final
    rcases (continues_readSkip reader.flags reader.rest () _ rfl).2 with hclean | ⟨-, htaken⟩
    · left
      intro more
      have hskip : (reader.within outside (')' :: more)).flags.skip
          (reader.within outside (')' :: more)).rest = ')' :: more := by
        have happend := (Prod.mk.inj (Except.ok.inj (hclean more))).2
        rw [hfinal, List.nil_append] at happend
        exact happend
      have hstep : (reader.within outside (')' :: more)).step ')' more =
          .ok (closed reader outside group outer more) := by
        have hclose : (reader.within outside (')' :: more)).step ')' more =
            (reader.within outside (')' :: more)).closeGroup more := rfl
        have hfinish : (reader.within outside (')' :: more)).level.finish =
            reader.level.finish.shift outside.groupCount :=
          PatternLevel.finish_shift outside.groupCount reader.level
        rw [hclose]
        unfold PatternReader.closeGroup
        rw [hopened', hfinish]
        rfl
      have hreads' := hreads more
      rw [hstart more] at hreads'
      exact hreads'.tail ⟨')', more, hskip, hstep⟩
    · right
      have hend : (reader.within outside [')']).Final :=
        (Prod.mk.inj (Except.ok.inj htaken)).2
      have hreads' := hreads []
      rw [hstart []] at hreads'
      exact (hend.stuck (PatternReader.opened_within_ne_nil hne _ _)).of_reads hreads'
  · right
    rw [hstart []] at hstuck
    exact hstuck

end Pattern

end ScratchEditor

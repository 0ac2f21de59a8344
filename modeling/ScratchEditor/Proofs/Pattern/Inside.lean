import ScratchEditor.Proofs.Pattern.ContinuingBracket
import ScratchEditor.Proofs.Pattern.ContinuingGroup

/-!
# Reading inside an open group

A reader that stands in an open group does what a reader does that begins there: the
numbers of its groups are shifted by the groups before, and what was open stays open.
It differs in two ways only.  A comment at the end may take in the bracket that closes
the group, and a name may have been given outside before.

Main definitions:

- `Node.shift`: a tree with the numbers of its groups shifted.
- `PatternReader.within`: a reader with what stands around the group it reads.
- `PatternReader.Inside`: a part of reading that goes on in the same way inside a group.

Main results:

- `PatternReader.inside_step`: one step of reading.
-/

namespace ScratchEditor

/-! ## Shifted groups -/

/-- The tree with the numbers of its groups shifted. -/
def Node.shift (n : Nat) : Node → Node
  | never => never
  | empty => empty
  | char set => char set
  | anchor condition => anchor condition
  | seq first second => seq (first.shift n) (second.shift n)
  | either first second => either (first.shift n) (second.shift n)
  | group index body => group (index + n) (body.shift n)
  | times body least most greedy => times (body.shift n) least most greedy

theorem Node.shift_sequence (n : Nat) (nodes : List Node) :
    (sequence nodes).shift n = sequence (nodes.map (shift n)) := by
  induction nodes with
  | nil => rfl
  | cons node rest ih =>
    have hcons : (sequence (node :: rest)).shift n = seq (node.shift n) ((sequence rest).shift n) :=
      rfl
    rw [hcons, ih]
    rfl

theorem Node.shift_choice (n : Nat) (nodes : List Node) :
    (choice nodes).shift n = choice (nodes.map (shift n)) := by
  induction nodes with
  | nil => rfl
  | cons node rest ih =>
    have hcons : (choice (node :: rest)).shift n = either (node.shift n) ((choice rest).shift n) :=
      rfl
    rw [hcons, ih]
    rfl

theorem Node.shift_repeated (n : Nat) (body : Node) (least : Nat) (most : Option Nat)
    (greedy : Bool) :
    (repeated body least most greedy).shift n = repeated (body.shift n) least most greedy := by
  unfold repeated
  by_cases hmost : most = some 0
  · rw [if_pos hmost, if_pos hmost]
    rfl
  · rw [if_neg hmost, if_neg hmost]
    rfl

/-- The item with its groups shifted. -/
def PatternItem.shift (n : Nat) : PatternItem → PatternItem
  | node own => node (own.shift n)
  | switch => switch

theorem PatternItem.toNode_shift (n : Nat) (item : PatternItem) :
    (item.shift n).toNode = item.toNode.shift n := by
  cases item with
  | node own => rfl
  | switch => rfl

namespace PatternLevel

/-- The level with its groups shifted. -/
def shift (n : Nat) (level : PatternLevel) : PatternLevel where
  alternatives := level.alternatives.map (Node.shift n)
  items := level.items.map (PatternItem.shift n)

theorem current_shift (n : Nat) (level : PatternLevel) :
    (level.shift n).current = level.current.shift n := by
  have hitems :
      (PatternItem.toNode ∘ PatternItem.shift n) = (Node.shift n ∘ PatternItem.toNode) := by
    funext item
    exact PatternItem.toNode_shift n item
  unfold current shift
  rw [Node.shift_sequence, ← List.map_reverse, List.map_map, List.map_map, hitems]

theorem finish_shift (n : Nat) (level : PatternLevel) :
    (level.shift n).finish = level.finish.shift n := by
  unfold finish
  rw [Node.shift_choice, current_shift, List.map_append, List.map_reverse]
  rfl

theorem nextAlternative_shift (n : Nat) (level : PatternLevel) :
    (level.shift n).nextAlternative = level.nextAlternative.shift n := by
  unfold nextAlternative
  rw [current_shift]
  rfl

end PatternLevel

/-- The open group with its number shifted. -/
def OpenGroup.shift (n : Nat) (group : OpenGroup) : OpenGroup where
  index := group.index.map (· + n)
  flags := group.flags
  level := group.level.shift n

namespace PatternReader

theorem groupNode_shift (n : Nat) (index : Option Nat) (body : Node) :
    groupNode (index.map (· + n)) (body.shift n) = (groupNode index body).shift n := by
  cases index with
  | none => rfl
  | some index => rfl

/-! ## Readers with something around them -/

/-- A reader with more text behind, and with what was read outside the group it reads. -/
def within (reader outside : PatternReader) (more : Text) : PatternReader where
  rest := reader.rest ++ more
  flags := reader.flags
  level := reader.level.shift outside.groupCount
  opened := reader.opened.map (OpenGroup.shift outside.groupCount) ++ outside.opened
  groupCount := reader.groupCount + outside.groupCount
  names := reader.names.map (fun name => (name.1, name.2 + outside.groupCount)) ++ outside.names

/-- What is done with the reader once a part of the text has been read. -/
abbrev ReaderStep :=
  PatternReader → Text → Except PatternError PatternReader

/-- A step that reads no text: it goes on at the text it is given, inside a group as outside. -/
def InPlace (act : ReaderStep) : Prop :=
  ∀ reader rest reader', act reader rest = .ok reader' →
    reader'.rest = rest ∧ ∀ outside before more,
      act (reader.within outside before) (rest ++ more) = .ok (reader'.within outside more)

/--
A step that does the same inside a group, with a closing bracket and more text behind;
or it takes in that bracket at the end of the text, or it meets a name given outside.
-/
def Inside (act : ReaderStep) : Prop :=
  ∀ reader rest reader', act reader rest = .ok reader' →
    reader'.rest.length ≤ rest.length ∧ ∀ outside,
      (∀ more, act (reader.within outside (')' :: more)) (rest ++ ')' :: more) =
        .ok (reader'.within outside (')' :: more))) ∨
      (reader'.rest = [] ∧ act (reader.within outside [')']) (rest ++ [')']) =
        .ok (reader'.within outside [])) ∨
      ∀ more, act (reader.within outside (')' :: more)) (rest ++ ')' :: more) =
        .error .repeatedName

theorem InPlace.inside {act : ReaderStep} (hact : InPlace act) : Inside act := by
  intro reader rest reader' h
  obtain ⟨hrest, hwithin⟩ := hact reader rest reader' h
  refine ⟨Nat.le_of_eq (congrArg List.length hrest), ?_⟩
  intro outside
  exact Or.inl fun more => hwithin outside (')' :: more) (')' :: more)

/-- A part of the text is read, and then a step reads no more of it. -/
theorem inside_read {α : Type} {read : Flags → PartReader α} {act : α → ReaderStep}
    (hread : ∀ flags, Continues (read flags)) (hact : ∀ x, InPlace (act x)) :
    Inside fun reader rest => read reader.flags rest >>= fun part => act part.1 reader part.2 := by
  intro reader rest reader' h
  cases hpart : read reader.flags rest with
  | error cause =>
    simp only [hpart] at h
    cases h
  | ok part =>
    obtain ⟨x, behind⟩ := part
    simp only [hpart] at h
    obtain ⟨hrest, hwithin⟩ := hact x reader behind reader' h
    obtain ⟨hlength, hcases⟩ := hread reader.flags rest x behind hpart
    refine ⟨hrest ▸ hlength, ?_⟩
    intro outside
    have hflags (more : Text) : (reader.within outside more).flags = reader.flags := rfl
    rcases hcases with hclean | ⟨hnil, htaken⟩
    · left
      intro more
      simp only [hflags, hclean more]
      exact hwithin outside (')' :: more) (')' :: more)
    · right
      left
      refine ⟨hrest.trans hnil, ?_⟩
      simp only [hflags, htaken]
      have hend := hwithin outside [')'] []
      rw [hnil] at hend
      exact hend

/-! ## Steps that read nothing -/

theorem inPlace_push (node : PatternReader → Node)
    (hnode : ∀ reader outside more,
      node (reader.within outside more) = (node reader).shift outside.groupCount) :
    InPlace fun reader rest => .ok (reader.push (node reader) rest) := by
  intro reader rest reader' h
  obtain rfl := Except.ok.inj h
  refine ⟨rfl, ?_⟩
  intro outside before more
  dsimp only
  rw [hnode]
  rfl

theorem inPlace_repeatLast (least : Nat) (most : Option Nat) (greedy : Bool) :
    InPlace fun reader rest => reader.repeatLast least most greedy rest := by
  intro reader rest reader' h
  dsimp only at h ⊢
  unfold repeatLast at h
  split at h
  · rename_i node items hitems
    obtain rfl := Except.ok.inj h
    refine ⟨rfl, ?_⟩
    intro outside before more
    have hitems' : (reader.within outside before).level.items =
        .node (node.shift outside.groupCount) ::
          items.map (PatternItem.shift outside.groupCount) := by
      have hmap : (reader.within outside before).level.items =
          reader.level.items.map (PatternItem.shift outside.groupCount) := rfl
      rw [hmap, hitems]
      rfl
    unfold repeatLast
    rw [hitems']
    dsimp only
    rw [← Node.shift_repeated]
    rfl
  · cases h

theorem inPlace_closeGroup : InPlace closeGroup := by
  intro reader rest reader' h
  unfold closeGroup at h
  split at h
  · cases h
  · rename_i group outer hopened
    obtain rfl := Except.ok.inj h
    refine ⟨rfl, ?_⟩
    intro outside before more
    have hopened' : (reader.within outside before).opened =
        group.shift outside.groupCount ::
          (outer.map (OpenGroup.shift outside.groupCount) ++ outside.opened) := by
      have hmap : (reader.within outside before).opened =
          reader.opened.map (OpenGroup.shift outside.groupCount) ++ outside.opened := rfl
      rw [hmap, hopened]
      rfl
    have hlevel :
        (reader.within outside before).level = reader.level.shift outside.groupCount := rfl
    unfold closeGroup
    rw [hopened', hlevel, PatternLevel.finish_shift]
    have hnode := groupNode_shift outside.groupCount group.index reader.level.finish
    dsimp only [OpenGroup.shift]
    rw [hnode]
    rfl

theorem inPlace_nextAlternative : InPlace fun reader rest =>
    .ok { reader with rest := rest, level := reader.level.nextAlternative } := by
  intro reader rest reader' h
  obtain rfl := Except.ok.inj h
  refine ⟨rfl, ?_⟩
  intro outside before more
  have hlevel : (reader.within outside before).level = reader.level.shift outside.groupCount := rfl
  dsimp only
  rw [hlevel, PatternLevel.nextAlternative_shift]
  rfl

/-- Opening a group takes the next number inside as outside. -/
theorem openGroup_within (reader outside : PatternReader) (before more : Text) (captures : Bool)
    (flags : Flags) (rest : Text) :
    (reader.within outside before).openGroup
      (if captures then some ((reader.within outside before).groupCount + 1) else none) flags
      (rest ++ more) =
    (reader.openGroup (if captures then some (reader.groupCount + 1) else none) flags rest).within
      outside more := by
  have hcount : (reader.within outside before).groupCount =
      reader.groupCount + outside.groupCount := rfl
  cases captures with
  | false => rfl
  | true =>
    simp only [openGroup, within, if_true, Option.isSome_some, OpenGroup.shift, List.map_cons,
      Option.map_some, List.cons_append, Nat.add_right_comm]
    rfl

/-! ## Openings of groups -/

/-- The reader in a new group under a name that was read. -/
def enter (reader : PatternReader) (name rest : Text) : PatternReader :=
  { reader.openGroup (some (reader.groupCount + 1)) reader.flags rest with
    names := (name, reader.groupCount + 1) :: reader.names }

/-- A named group is opened if its name can be read and is new. -/
theorem openNamed_eq {reader : PatternReader} {text name rest : Text}
    (hname : readName true text = .ok (name, rest)) :
    reader.openNamed text =
      if reader.names.any (·.1 == name) then .error .repeatedName
      else .ok (reader.enter name rest) := by
  unfold openNamed
  rw [hname]
  simp only [bind, Except.bind]
  by_cases hrepeated : reader.names.any (·.1 == name) = true
  · rw [if_pos hrepeated, if_pos hrepeated]
    rfl
  · rw [if_neg hrepeated, if_neg hrepeated]
    rfl

theorem enter_within (reader outside : PatternReader) (before more name rest : Text) :
    (reader.within outside before).enter name (rest ++ more) =
      (reader.enter name rest).within outside more := by
  have hopen := openGroup_within reader outside before more true reader.flags rest
  simp only [if_true] at hopen
  have hflags : (reader.within outside before).flags = reader.flags := rfl
  unfold enter
  rw [hflags, hopen]
  have hcount : (reader.within outside before).groupCount + 1 =
      reader.groupCount + 1 + outside.groupCount := Nat.add_right_comm _ _ _
  rw [hcount]
  rfl

theorem inside_openNamed : Inside openNamed := by
  intro reader rest reader' h
  cases hname : readName true rest with
  | error cause =>
    unfold openNamed at h
    rw [hname] at h
    cases h
  | ok part =>
    obtain ⟨name, behind⟩ := part
    obtain ⟨hlength, happend⟩ := readName_append hname
    rw [openNamed_eq hname] at h
    by_cases hrepeated : reader.names.any (·.1 == name) = true
    · rw [if_pos hrepeated] at h
      cases h
    · rw [if_neg hrepeated] at h
      obtain rfl := Except.ok.inj h
      refine ⟨hlength, ?_⟩
      intro outside
      have hnames (more : Text) : (reader.within outside more).names.any (·.1 == name) =
          outside.names.any (·.1 == name) := by
        have hmap : (reader.within outside more).names =
            reader.names.map (fun name => (name.1, name.2 + outside.groupCount)) ++
              outside.names := rfl
        have hinner : (reader.names.map (fun name => (name.1, name.2 + outside.groupCount))).any
            (·.1 == name) = false := by
          rw [List.any_map]
          exact Bool.eq_false_iff.mpr hrepeated
        rw [hmap, List.any_append, hinner, Bool.false_or]
      by_cases houtside : outside.names.any (·.1 == name) = true
      · right
        right
        intro more
        rw [openNamed_eq (happend _), hnames, if_pos houtside]
      · left
        intro more
        rw [openNamed_eq (happend _), hnames, if_neg houtside, enter_within]

/-- Flags with a colon behind open a group. -/
theorem readFlagGroup_opens {reader : PatternReader} {text rest : Text} {flags : Flags}
    {seen : List Char} (hread : readFlags reader.flags [] text = .ok (flags, seen, true, rest)) :
    reader.readFlagGroup text = .ok (reader.openGroup none flags rest) := by
  unfold readFlagGroup
  rw [hread]
  rfl

/-- Flags without a colon count from there on, and there must be one. -/
theorem readFlagGroup_switches {reader : PatternReader} {text rest : Text} {flags : Flags}
    {seen : List Char} (hread : readFlags reader.flags [] text = .ok (flags, seen, false, rest)) :
    reader.readFlagGroup text =
      if seen.isEmpty then .error .nothingToRepeat
      else .ok { reader with
        rest := rest, flags := flags, level := reader.level.push .switch } := by
  unfold readFlagGroup
  rw [hread]
  cases hseen : seen.isEmpty with
  | true =>
    simp only [bind, Except.bind, hseen]
    rfl
  | false =>
    simp only [bind, Except.bind, hseen]
    rfl

theorem inside_readFlagGroup : Inside readFlagGroup := by
  intro reader rest reader' h
  cases hflags : readFlags reader.flags [] rest with
  | error cause =>
    unfold readFlagGroup at h
    rw [hflags] at h
    cases h
  | ok part =>
    obtain ⟨flags, seen, encloses, behind⟩ := part
    obtain ⟨hlength, happend⟩ := readFlags_append hflags
    have hread (outside : PatternReader) (more : Text) :
        readFlags (reader.within outside more).flags [] (rest ++ more) =
          .ok (flags, seen, encloses, behind ++ more) := happend more
    cases encloses with
    | true =>
      rw [readFlagGroup_opens hflags] at h
      obtain rfl := Except.ok.inj h
      refine ⟨hlength, ?_⟩
      intro outside
      left
      intro more
      have hopen := openGroup_within reader outside (')' :: more) (')' :: more) false flags behind
      rw [readFlagGroup_opens (hread outside _)]
      exact congrArg Except.ok hopen
    | false =>
      rw [readFlagGroup_switches hflags] at h
      split at h
      · cases h
      · rename_i hseen
        obtain rfl := Except.ok.inj h
        refine ⟨hlength, ?_⟩
        intro outside
        left
        intro more
        rw [readFlagGroup_switches (hread outside _), if_neg hseen]
        rfl

/-- The opening of a group from the first character that counts. -/
def groupOpening (reader : PatternReader) (text : Text) : Except PatternError PatternReader :=
  match text with
  | '?' :: '=' :: _ => .error .lookAround
  | '?' :: '!' :: _ => .error .lookAround
  | '?' :: '<' :: '=' :: _ => .error .lookAround
  | '?' :: '<' :: '!' :: _ => .error .lookAround
  | '?' :: 'P' :: '<' :: rest => reader.openNamed rest
  | '?' :: '<' :: rest => reader.openNamed rest
  | '?' :: rest => reader.readFlagGroup rest
  | _ => .ok (reader.openGroup (some (reader.groupCount + 1)) reader.flags text)

theorem readGroup_eq (reader : PatternReader) (text : Text) :
    reader.readGroup text = reader.groupOpening (reader.flags.skip text) :=
  rfl

theorem groupOpening_plain (reader : PatternReader) {c : Char} (hc : c ≠ '?') (rest : Text) :
    reader.groupOpening (c :: rest) =
      .ok (reader.openGroup (some (reader.groupCount + 1)) reader.flags (c :: rest)) := by
  unfold groupOpening
  split <;> simp_all

theorem groupOpening_angle (reader : PatternReader) {c : Char} (hequal : c ≠ '=')
    (hmark : c ≠ '!') (rest : Text) :
    reader.groupOpening ('?' :: '<' :: c :: rest) = reader.openNamed (c :: rest) := by
  unfold groupOpening
  split <;> grind

theorem groupOpening_flags (reader : PatternReader) {c : Char} (hequal : c ≠ '=') (hmark : c ≠ '!')
    (hangle : c ≠ '<') (hletter : c ≠ 'P') (rest : Text) :
    reader.groupOpening ('?' :: c :: rest) = reader.readFlagGroup (c :: rest) := by
  unfold groupOpening
  split <;> simp_all

/-- The ways in which the opening of a group can be read. -/
theorem groupOpening_cases {reader reader' : PatternReader} {text : Text}
    (h : reader.groupOpening text = .ok reader') :
    (text = [] ∧ reader' = reader.openGroup (some (reader.groupCount + 1)) reader.flags []) ∨
    (∃ c rest, text = c :: rest ∧ c ≠ '?' ∧
      reader' = reader.openGroup (some (reader.groupCount + 1)) reader.flags (c :: rest)) ∨
    (∃ rest, text = '?' :: 'P' :: '<' :: rest ∧ reader.openNamed rest = .ok reader') ∨
    (∃ c rest, text = '?' :: '<' :: c :: rest ∧ c ≠ '=' ∧ c ≠ '!' ∧
      reader.openNamed (c :: rest) = .ok reader') ∨
    (∃ c rest, text = '?' :: c :: rest ∧ c ≠ '=' ∧ c ≠ '!' ∧ c ≠ '<' ∧ c ≠ 'P' ∧
      reader.readFlagGroup (c :: rest) = .ok reader') := by
  match text with
  | [] => exact Or.inl ⟨rfl, (Except.ok.inj h).symm⟩
  | c :: rest =>
    by_cases hquestion : c = '?'
    · subst hquestion
      cases rest with
      | nil => cases h
      | cons c rest =>
        by_cases hequal : c = '='
        · subst hequal
          cases h
        · by_cases hmark : c = '!'
          · subst hmark
            cases h
          · by_cases hangle : c = '<'
            · subst hangle
              cases rest with
              | nil => cases h
              | cons c rest =>
                by_cases hequal' : c = '='
                · subst hequal'
                  cases h
                · by_cases hmark' : c = '!'
                  · subst hmark'
                    cases h
                  · rw [groupOpening_angle reader hequal' hmark'] at h
                    exact Or.inr (Or.inr (Or.inr (Or.inl ⟨c, rest, rfl, hequal', hmark', h⟩)))
            · by_cases hletter : c = 'P'
              · subst hletter
                match rest with
                | '<' :: rest => exact Or.inr (Or.inr (Or.inl ⟨rest, rfl, h⟩))
                | [] => cases h
                | c :: rest =>
                  by_cases hangle' : c = '<'
                  · subst hangle'
                    exact Or.inr (Or.inr (Or.inl ⟨rest, rfl, h⟩))
                  · -- A capital letter is no flag.
                    have hread : reader.groupOpening ('?' :: 'P' :: c :: rest) =
                        reader.readFlagGroup ('P' :: c :: rest) := by
                      unfold groupOpening
                      split <;> grind
                    rw [hread] at h
                    cases h
              · rw [groupOpening_flags reader hequal hmark hangle hletter] at h
                exact Or.inr (Or.inr (Or.inr (Or.inr
                  ⟨c, rest, rfl, hequal, hmark, hangle, hletter, h⟩)))
    · rw [groupOpening_plain reader hquestion] at h
      exact Or.inr (Or.inl ⟨c, rest, rfl, hquestion, (Except.ok.inj h).symm⟩)

/-- A step that hands the rest of its text to another one. -/
theorem Inside.of_eq {act other : ReaderStep} (hother : Inside other)
    {reader reader' : PatternReader} {rest behind : Text}
    (h : other reader behind = .ok reader') (hlength : behind.length ≤ rest.length)
    (heq : ∀ outside more, act (reader.within outside (')' :: more)) (rest ++ ')' :: more) =
      other (reader.within outside (')' :: more)) (behind ++ ')' :: more)) :
    reader'.rest.length ≤ rest.length ∧ ∀ outside,
      (∀ more, act (reader.within outside (')' :: more)) (rest ++ ')' :: more) =
        .ok (reader'.within outside (')' :: more))) ∨
      (reader'.rest = [] ∧ act (reader.within outside [')']) (rest ++ [')']) =
        .ok (reader'.within outside [])) ∨
      ∀ more, act (reader.within outside (')' :: more)) (rest ++ ')' :: more) =
        .error .repeatedName := by
  obtain ⟨hle, hcases⟩ := hother reader behind reader' h
  refine ⟨Nat.le_trans hle hlength, ?_⟩
  intro outside
  rcases hcases outside with hclean | ⟨hnil, htaken⟩ | hrepeated
  · left
    intro more
    rw [heq, hclean more]
  · right
    left
    exact ⟨hnil, by rw [heq, htaken]⟩
  · right
    right
    intro more
    rw [heq, hrepeated more]

theorem inside_readGroup : Inside readGroup := by
  intro reader rest reader' h
  rw [readGroup_eq] at h
  have hlength := length_skip_le reader.flags rest
  have hopen (outside : PatternReader) (before more behind : Text) :=
    openGroup_within reader outside before more true reader.flags behind
  simp only [if_true] at hopen
  rcases groupOpening_cases h with ⟨hnil, rfl⟩ | ⟨c, behind, htext, hc, rfl⟩ |
    ⟨behind, htext, hnamed⟩ | ⟨c, behind, htext, hequal, hmark, hnamed⟩ |
    ⟨c, behind, htext, hequal, hmark, hangle, hletter, hflags⟩
  · refine ⟨Nat.zero_le _, ?_⟩
    intro outside
    rcases (continues_readSkip reader.flags rest () _ rfl).2 with hclean | ⟨-, htaken⟩
    · left
      intro more
      have hskip : reader.flags.skip (rest ++ ')' :: more) = ')' :: more := by
        rw [(Prod.mk.inj (Except.ok.inj (hclean more))).2, hnil, List.nil_append]
      have hflags : (reader.within outside (')' :: more)).flags = reader.flags := rfl
      rw [readGroup_eq, hflags, hskip, groupOpening_plain _ (by decide)]
      exact congrArg Except.ok (hopen outside (')' :: more) (')' :: more) [])
    · right
      left
      have hskip : reader.flags.skip (rest ++ [')']) = [] := (Prod.mk.inj (Except.ok.inj htaken)).2
      have hflags : (reader.within outside [')']).flags = reader.flags := rfl
      refine ⟨rfl, ?_⟩
      rw [readGroup_eq, hflags, hskip]
      exact congrArg Except.ok (hopen outside [')'] [] [])
  all_goals
    have hskip (outside : PatternReader) (more : Text) :
        (reader.within outside (')' :: more)).readGroup (rest ++ ')' :: more) =
          (reader.within outside (')' :: more)).groupOpening
            (reader.flags.skip rest ++ ')' :: more) := by
      rw [readGroup_eq, ← skip_append (by rw [htext]; exact List.cons_ne_nil _ _)]
      rfl
    rw [htext] at hskip hlength
    simp only [List.length_cons] at hlength
  · refine ⟨hlength, ?_⟩
    intro outside
    left
    intro more
    rw [hskip, List.cons_append, groupOpening_plain _ hc]
    exact congrArg Except.ok (hopen outside (')' :: more) (')' :: more) (c :: behind))
  · refine Inside.of_eq inside_openNamed hnamed (by omega) ?_
    intro outside more
    exact hskip outside more
  · refine Inside.of_eq inside_openNamed hnamed (by rw [List.length_cons]; omega) ?_
    intro outside more
    rw [hskip]
    exact groupOpening_angle _ hequal hmark _
  · refine Inside.of_eq inside_readFlagGroup hflags (by rw [List.length_cons]; omega) ?_
    intro outside more
    rw [hskip]
    exact groupOpening_flags _ hequal hmark hangle hletter _

/-! ## One step -/

theorem Inside.ite {act other : ReaderStep} (condition : Prop) [Decidable condition]
    (hact : Inside act) (hother : Inside other) :
    Inside fun reader rest => if condition then act reader rest else other reader rest := by
  by_cases h : condition
  · simp only [if_pos h]
    exact hact
  · simp only [if_neg h]
    exact hother

/-- A repetition by one of the signs for it. -/
theorem inside_repeatGreedy (least : Nat) (most : Option Nat) : Inside fun reader rest =>
    let (greedy, rest) := greediness rest
    reader.repeatLast least most greedy rest :=
  inside_read (fun _ => continues_greediness) fun greedy => inPlace_repeatLast least most greedy

/-- The bounds of a repetition and the mark behind them. -/
def readRepetition (flags : Flags) : PartReader ((Nat × Option Nat) × Bool) :=
  fun text =>
    (readBounds flags text).map (fun bounds => ((bounds.1, bounds.2.1), bounds.2.2)) >>=
      fun part => .ok ((part.1, (greediness part.2).1), (greediness part.2).2)

theorem continues_readRepetition (flags : Flags) : Continues (readRepetition flags) :=
  (continues_readBounds flags).bind fun bounds =>
    continues_greediness.map fun greedy => (bounds, greedy)

/-- A repetition by bounds, as one reader and a step behind it. -/
theorem repeatBounds_eq :
    (fun (reader : PatternReader) rest => (do
      let (least, most, rest) ← readBounds reader.flags rest
      let (greedy, rest) := greediness rest
      reader.repeatLast least most greedy rest)) =
    fun reader rest => readRepetition reader.flags rest >>= fun part =>
      reader.repeatLast part.1.1.1 part.1.1.2 part.1.2 part.2 := by
  funext reader rest
  unfold readRepetition
  cases readBounds reader.flags rest with
  | error cause => rfl
  | ok bounds => rfl

/-- A repetition by bounds. -/
theorem inside_repeatBounds : Inside (fun reader rest => do
    let (least, most, rest) ← readBounds reader.flags rest
    let (greedy, rest) := greediness rest
    reader.repeatLast least most greedy rest) := by
  rw [repeatBounds_eq]
  exact inside_read continues_readRepetition fun bounds =>
    inPlace_repeatLast bounds.1.1 bounds.1.2 bounds.2

theorem inside_push (node : PatternReader → Node)
    (hnode : ∀ reader outside more,
      node (reader.within outside more) = (node reader).shift outside.groupCount) :
    Inside fun reader rest => .ok (reader.push (node reader) rest) :=
  (inPlace_push node hnode).inside

theorem shift_atomNode (flags : Flags) (atom : Atom) (n : Nat) :
    (atomNode flags atom).shift n = atomNode flags atom := by
  cases atom with
  | literal c => rfl
  | set set => rfl
  | wordEdge negated => rfl
  | textEnd stop => rfl

/-- One step of reading inside a group. -/
theorem inside_step (c : Char) : Inside fun reader rest => reader.step c rest := by
  unfold step
  refine Inside.ite _ inside_readGroup ?_
  refine Inside.ite _ inPlace_closeGroup.inside ?_
  refine Inside.ite _ inPlace_nextAlternative.inside ?_
  refine Inside.ite _ ?_ ?_
  · exact inside_read continues_readBracket fun set =>
      inPlace_push (fun _ => .char set) fun _ _ _ => rfl
  refine Inside.ite _ (inside_repeatGreedy 0 (some 1)) ?_
  refine Inside.ite _ (inside_repeatGreedy 0 none) ?_
  refine Inside.ite _ (inside_repeatGreedy 1 none) ?_
  refine Inside.ite _ inside_repeatBounds ?_
  refine Inside.ite _ ?_ ?_
  · exact inside_read continues_readEscape fun atom =>
      inPlace_push (fun reader => atomNode reader.flags atom) fun reader outside _ =>
        (shift_atomNode reader.flags atom outside.groupCount).symm
  refine Inside.ite _ (inside_push (fun reader => dotNode reader.flags) fun _ _ _ => rfl) ?_
  refine Inside.ite _ (inside_push (fun reader =>
    .anchor (if reader.flags.manyLines then .lineStart else .textStart)) fun _ _ _ => rfl) ?_
  refine Inside.ite _ (inside_push (fun reader =>
    .anchor (if reader.flags.manyLines then .lineStop else .textStop)) fun _ _ _ => rfl) ?_
  exact inside_push (fun reader => atomNode reader.flags (.literal c)) fun reader outside _ =>
    (shift_atomNode reader.flags (.literal c) outside.groupCount).symm

end PatternReader

end ScratchEditor

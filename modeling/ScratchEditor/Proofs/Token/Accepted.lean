import ScratchEditor.Proofs.Token.Table

/-!
# The categories that are looked for

A category is left out if the combined pattern cannot be read with it, or if there is no room for
the pattern that was read.  The patterns of the table have no groups with names and switch no
flags, so they are read inside of a group as they are read alone.  Every one of them is looked
for, as long as there is room for all of them together.

Main definitions:

- `Pattern.Plain`: a pattern that leaves behind nothing but a level that has been read.

Main results:

- `Classifier.categories_of_plain`: categories with plain patterns are all looked for, if the
  pattern that combines all of them can be compiled.
- `Category.plain_of_mem_table`: the patterns of the table are plain.
- `Classifier.ofCategories_table_of_long`: a keyword that is too long drops all of them.
-/

namespace ScratchEditor

/-! ## Names of groups -/

/-- Groups at different positions have different names. -/
theorem groupName_injective {i j : Nat} (h : groupName i = groupName j) : i = j := by
  have hdecimal : decimal i = decimal j := List.append_cancel_left h
  have hvalue := congrArg (Nat.ofDigitChars 10 · 0) hdecimal
  simpa only [ofDigitChars_decimal] using hvalue

/-! ## Plain patterns -/

/--
A pattern is read up to its end, or up to the bracket that closes the group around it, and
changes nothing but the level.
-/
def Pattern.Plain (text : Text) : Prop :=
  ∀ opened groupCount names more, more = [] ∨ more.head? = some ')' →
    ∃ level, PatternReader.Reads ⟨text ++ more, .none, .empty, opened, groupCount, names⟩
      ⟨more, .none, level, opened, groupCount, names⟩

namespace Pattern

/-- What is read of a plain pattern alone. -/
theorem Plain.alone {text : Text} (h : Plain text) :
    ∃ level, Alone text ⟨[], .none, level, [], 0, []⟩ := by
  obtain ⟨level, hreads⟩ := h [] 0 [] [] (Or.inl rfl)
  rw [List.append_nil] at hreads
  exact ⟨level, hreads, rfl, rfl⟩

end Pattern

namespace Combined

variable {slots : List Slot} {reader : PatternReader}

/-- The groups of the combined pattern are named by the positions of its categories. -/
def NamedByPosition (slots : List Slot) (reader : PatternReader) : Prop :=
  ∀ name ∈ reader.names, ∃ i < slots.length, name.1 = groupName i

/-- The combined pattern can be read with one more category whose pattern is plain. -/
theorem exists_read (h : Combined slots reader) (hnames : NamedByPosition slots reader)
    {category : Category} (hplain : Pattern.Plain category.pattern) :
    ∃ pattern, Pattern.read (combinedSource (slots.map Slot.category ++ [category])) =
      .ok pattern := by
  have hnew : ¬ reader.names.any (·.1 == groupName slots.length) = true := by
    intro hany
    obtain ⟨name, hmem, hname⟩ := List.any_eq_true.mp hany
    obtain ⟨i, hi, heq⟩ := hnames name hmem
    rw [beq_iff_eq, heq] at hname
    exact absurd (groupName_injective hname) (Nat.ne_of_lt hi)
  have hentered := h.reads_entered category [] hnew
  rw [List.append_nil] at hentered
  obtain ⟨level, hinside⟩ := hplain (entered slots reader []).opened
    (entered slots reader []).groupCount (entered slots reader []).names [')'] (Or.inr rfl)
  have hstart : entered slots reader (category.pattern ++ [')']) =
      ⟨category.pattern ++ [')'], .none, .empty, (entered slots reader []).opened,
        (entered slots reader []).groupCount, (entered slots reader []).names⟩ := by
    rw [← h.flags]
    rfl
  rw [hstart] at hentered
  refine ⟨_, Pattern.read_eq_ok_iff.mpr ⟨_, (hentered.trans hinside).tail
    (PatternReader.readsOne_of_step rfl rfl rfl), ?_, ?_, rfl⟩⟩
  · have hflags : reader.flags.skip [] = [] := by
      rw [h.flags]
      rfl
    exact hflags
  · exact h.opened

/-- One more category leaves the groups named by position. -/
theorem namedByPosition_added {level : PatternLevel} (hnames : NamedByPosition slots reader)
    (slot : Slot) :
    NamedByPosition (slots ++ [slot]) (added slots reader ⟨[], .none, level, [], 0, []⟩ []) := by
  have hadded : (added slots reader ⟨[], .none, level, [], 0, []⟩ []).names =
      (groupName slots.length, reader.groupCount + 1) :: reader.names := rfl
  intro name hmem
  rw [hadded] at hmem
  rw [List.length_append, List.length_singleton]
  rcases List.mem_cons.mp hmem with rfl | hold
  · exact ⟨slots.length, Nat.lt_succ_self _, rfl⟩
  · obtain ⟨i, hi, heq⟩ := hnames name hold
    exact ⟨i, Nat.lt_succ_of_lt hi, heq⟩

/-- The next slot of a category whose pattern is plain, with the pattern that has been read. -/
theorem exists_next (h : Combined slots reader) (hnames : NamedByPosition slots reader)
    {category : Category} (hplain : Pattern.Plain category.pattern) :
    ∃ slot reader', Combined (slots ++ [slot]) reader' ∧ NamedByPosition (slots ++ [slot]) reader' ∧
      slot.category = category ∧
      Pattern.read (combinedSource (slots.map Slot.category ++ [category])) =
        .ok (Pattern.ofReader reader') := by
  obtain ⟨pattern, hread⟩ := h.exists_read hnames hplain
  obtain ⟨level, halone⟩ := hplain.alone
  obtain ⟨hnext, rfl⟩ := h.add halone hread
  exact ⟨_, _, hnext, namedByPosition_added hnames _, rfl, hread⟩

/-- The combined pattern of some slots is read up to its end. -/
theorem read_eq (h : Combined slots reader) :
    Pattern.read (combinedSource (slots.map Slot.category)) = .ok (Pattern.ofReader reader) := by
  have hreads := h.reads []
  rw [List.append_nil] at hreads
  have hfinal : PatternReader.Final { reader with rest := [] } :=
    PatternReader.final_of_rest_eq_nil rfl
  exact Pattern.read_eq_ok_iff.mpr ⟨_, hreads, hfinal, h.opened, rfl⟩

/-- There is room for the pattern of the first slots, if there is for that of some slots and plain
categories behind them. -/
theorem hasRoom_of_append (h : Combined slots reader) (hnames : NamedByPosition slots reader)
    (hne : slots ≠ []) {later : List Category}
    (hplain : ∀ category ∈ later, Pattern.Plain category.pattern) {pattern : Pattern}
    (hparse : Pattern.parse (combinedSource (slots.map Slot.category ++ later)) = .ok pattern) :
    (Pattern.ofReader reader).hasRoom = true := by
  induction later generalizing slots reader with
  | nil =>
    rw [List.append_nil] at hparse
    obtain ⟨hread, hroom⟩ := Pattern.parse_eq_ok_iff.mp hparse
    rw [Except.ok.inj (h.read_eq.symm.trans hread)]
    exact hroom
  | cons category later ih =>
    obtain ⟨hfirst, hlater⟩ := List.forall_mem_cons.mp hplain
    obtain ⟨slot, reader', hnext, hnames', rfl, -⟩ := h.exists_next hnames hfirst
    have hne' : slots ++ [slot] ≠ [] := by simp
    have hroom := ih hnext hnames' hne' hlater (by
      rw [List.map_append, List.append_assoc]
      exact hparse)
    have hnode : (Pattern.ofReader reader).node = Node.choice (slots.map Slot.tree) :=
      h.finish_eq hne
    have hnode' : (Pattern.ofReader reader').node =
        Node.choice ((slots ++ [slot]).map Slot.tree) := hnext.finish_eq hne'
    refine Pattern.hasRoom_of_le ?_ hroom
    rw [hnode, hnode', Node.states_choice, Node.states_choice, List.map_append, List.map_append,
      List.sum_append]
    exact Nat.le_add_right _ _

end Combined

namespace Classifier

/-- Categories with plain patterns are all looked for, if the pattern that combines all of them
can be compiled. -/
theorem categories_of_plain {categories : List Category} (baseStyle : Style)
    (hplain : ∀ category ∈ categories, Pattern.Plain category.pattern) {pattern : Pattern}
    (hparse : Pattern.parse (combinedSource categories) = .ok pattern) :
    (ofCategories categories baseStyle).categories = categories := by
  have hadd : ∀ (slots : List Slot) (reader : PatternReader) (later : List Category)
      (classifier : Classifier), Combined slots reader → Combined.NamedByPosition slots reader →
      classifier.categories = slots.map Slot.category →
      classifier.categories ++ later = categories →
      (later.foldl add classifier).categories = classifier.categories ++ later := by
    intro slots reader later
    induction later generalizing slots reader with
    | nil => exact fun classifier _ _ _ _ => (List.append_nil _).symm
    | cons category later ih =>
      intro classifier h hnames hslots hall
      have hmem : category ∈ categories := by simp [← hall]
      obtain ⟨slot, reader', hnext, hnames', rfl, hread⟩ := h.exists_next hnames (hplain _ hmem)
      have hwhole : Pattern.parse (combinedSource ((slots ++ [slot]).map Slot.category ++ later)) =
          .ok pattern := by
        rw [List.map_append, ← hslots, List.append_assoc]
        exact hall ▸ hparse
      have hroom := hnext.hasRoom_of_append hnames' (by simp)
        (fun other hother => hplain other (by simp [← hall, hother])) hwhole
      have hcompile : Engine.compile (combinedSource (classifier.categories ++ [slot.category])) =
          .ok (Pattern.ofReader reader') := by
        rw [hslots]
        exact Pattern.parse_eq_ok_iff.mpr ⟨hread, hroom⟩
      have hstep := ih (slots ++ [slot]) reader' (classifier.add slot.category) hnext hnames'
      rw [add_of_ok hcompile] at hstep
      rw [List.foldl_cons, add_of_ok hcompile, hstep ?_ ?_, List.append_assoc]
      · rfl
      · rw [hslots, List.map_append]
        rfl
      · rw [List.append_assoc]
        exact hall
  have hnone : Combined.NamedByPosition [] (.start []) := by
    intro name hmem
    cases hmem
  exact hadd [] (.start []) categories (plain baseStyle) combined_nil hnone rfl rfl

end Classifier

/-! ## The patterns of the table -/

namespace PatternReader

/-- An edge of a word is read behind a backslash. -/
theorem reads_wordEdge (level : PatternLevel) (opened : List OpenGroup) (groupCount : Nat)
    (names : List (Text × Nat)) (rest : Text) :
    Reads ⟨'\\' :: 'b' :: rest, .none, level, opened, groupCount, names⟩
      ⟨rest, .none, level.push (.node (.anchor .wordEdge)), opened, groupCount, names⟩ :=
  Relation.ReflTransGen.single (readsOne_of_step rfl rfl rfl)

end PatternReader

namespace Pattern

/-- A pattern between two edges of words is plain if what stands between them is read. -/
theorem plain_of_edges {text : Text}
    (hreads : ∀ opened groupCount names more, ∃ level,
      PatternReader.Reads
        ⟨text ++ '\\' :: more, .none, ⟨[], [.node (.anchor .wordEdge)]⟩, opened, groupCount, names⟩
        ⟨'\\' :: more, .none, level, opened, groupCount, names⟩) :
    Plain ("\\b".toList ++ text ++ "\\b".toList) := by
  intro opened groupCount names more _
  obtain ⟨level, hinside⟩ := hreads opened groupCount names ('b' :: more)
  have htext : "\\b".toList ++ text ++ "\\b".toList ++ more =
      '\\' :: 'b' :: (text ++ '\\' :: ('b' :: more)) := by
    simp
  rw [htext]
  exact ⟨_, ((PatternReader.reads_wordEdge .empty opened groupCount names _).trans hinside).trans
    (PatternReader.reads_wordEdge level opened groupCount names more)⟩

theorem plain_characterPattern : Plain characterPattern := by
  have htext : characterPattern = ['\'', '(', '?', ':', '\\', '\\', '.', '|', '[', '^', '\'',
      '\\', '\\', ']', '*', ')', '\''] := rfl
  intro opened groupCount names more _
  rw [htext]
  refine ⟨?level, ?reads⟩
  case reads =>
    iterate 9 refine Relation.ReflTransGen.head (PatternReader.readsOne_of_step rfl rfl rfl) ?_
    exact Relation.ReflTransGen.refl

theorem plain_stringPattern : Plain stringPattern := by
  have htext : stringPattern = ['"', '(', '?', ':', '\\', '\\', '.', '|', '[', '^', '"', '\\',
      '\\', ']', ')', '*', '"'] := rfl
  intro opened groupCount names more _
  rw [htext]
  refine ⟨?level, ?reads⟩
  case reads =>
    iterate 9 refine Relation.ReflTransGen.head (PatternReader.readsOne_of_step rfl rfl rfl) ?_
    exact Relation.ReflTransGen.refl

theorem plain_commentPattern : Plain commentPattern := by
  intro opened groupCount names more hmore
  refine ⟨⟨[.openComment, .closedComment], [.node (.many (.complement (.only '\n'))),
    .node (.char (.only '/')), .node (.char (.only '/'))]⟩, ?_⟩
  have hclosed (rest : Text) : PatternReader.Reads
      ⟨['/', '\\', '*', '[', '\\', 's', '\\', 'S', ']', '*', '?', '\\', '*', '/', '|'] ++ rest,
        .none, .empty, opened, groupCount, names⟩
      ⟨rest, .none, ⟨[.closedComment], []⟩, opened, groupCount, names⟩ := by
    iterate 7 refine Relation.ReflTransGen.head (PatternReader.readsOne_of_step rfl rfl rfl) ?_
    exact Relation.ReflTransGen.refl
  have hopen (rest : Text) : PatternReader.Reads
      ⟨['/', '\\', '*', '[', '\\', 's', '\\', 'S', ']', '*', '$', '|'] ++ rest,
        .none, ⟨[.closedComment], []⟩, opened, groupCount, names⟩
      ⟨rest, .none, ⟨[.openComment, .closedComment], []⟩, opened, groupCount, names⟩ := by
    iterate 6 refine Relation.ReflTransGen.head (PatternReader.readsOne_of_step rfl rfl rfl) ?_
    exact Relation.ReflTransGen.refl
  have htext : commentPattern =
      ['/', '\\', '*', '[', '\\', 's', '\\', 'S', ']', '*', '?', '\\', '*', '/', '|'] ++
        (['/', '\\', '*', '[', '\\', 's', '\\', 'S', ']', '*', '$', '|'] ++
          ['/', '/', '.', '*']) := rfl
  rw [htext, List.append_assoc, List.append_assoc]
  refine ((hclosed _).trans (hopen _)).trans ?_
  -- What follows the last star says whether it is greedy.
  cases more with
  | nil =>
    iterate 4 refine Relation.ReflTransGen.head (PatternReader.readsOne_of_step rfl rfl rfl) ?_
    exact Relation.ReflTransGen.refl
  | cons c more =>
    obtain rfl : c = ')' := by simpa using hmore
    iterate 4 refine Relation.ReflTransGen.head (PatternReader.readsOne_of_step rfl rfl rfl) ?_
    exact Relation.ReflTransGen.refl

theorem plain_numberPattern : Plain numberPattern := by
  have htext : "\\d+(?:\\.\\d+)?".toList =
      ['\\', 'd', '+', '(', '?', ':', '\\', '.', '\\', 'd', '+', ')', '?'] := rfl
  have hplain : Plain ("\\b".toList ++ "\\d+(?:\\.\\d+)?".toList ++ "\\b".toList) := by
    refine plain_of_edges fun opened groupCount names more => ?_
    rw [htext]
    refine ⟨?level, ?reads⟩
    case reads =>
      iterate 8 refine Relation.ReflTransGen.head (PatternReader.readsOne_of_step rfl rfl rfl) ?_
      exact Relation.ReflTransGen.refl
  exact hplain

theorem plain_typeNamePattern : Plain typeNamePattern := by
  have htext : "[A-Z][A-Za-z0-9_]*".toList =
      ['[', 'A', '-', 'Z', ']', '[', 'A', '-', 'Z', 'a', '-', 'z', '0', '-', '9', '_', ']', '*'] :=
    rfl
  have hplain : Plain ("\\b".toList ++ "[A-Z][A-Za-z0-9_]*".toList ++ "\\b".toList) := by
    refine plain_of_edges fun opened groupCount names more => ?_
    rw [htext]
    refine ⟨?level, ?reads⟩
    case reads =>
      iterate 3 refine Relation.ReflTransGen.head (PatternReader.readsOne_of_step rfl rfl rfl) ?_
      exact Relation.ReflTransGen.refl
  exact hplain

theorem plain_keywordPattern {keywords : List Text} {pattern : Text}
    (h : keywordPattern keywords = some pattern) : Plain pattern := by
  have hne : keywords ≠ [] := by
    rintro rfl
    cases h
  have hpattern : pattern = "\\b".toList ++
      ("(?:".toList ++ joinAlternatives (keywords.map escape) ++ [')']) ++ "\\b".toList := by
    unfold keywordPattern at h
    rw [if_neg (by rw [List.isEmpty_iff]; exact hne)] at h
    rw [← Option.some.inj h]
    simp
  rw [hpattern]
  refine plain_of_edges fun opened groupCount names more => ?_
  -- Inside the brackets the keywords are read as alternatives of a level of their own.
  obtain ⟨level, hreads, -⟩ := @PatternReader.reads_alternatives
    ⟨[], .none, .empty, ⟨none, .none, ⟨[], [.node (.anchor .wordEdge)]⟩⟩ :: opened, groupCount,
      names⟩ rfl keywords hne [] (')' :: '\\' :: more)
  refine ⟨⟨[], [.node level.finish, .node (.anchor .wordEdge)]⟩, ?_⟩
  have hopen := @PatternReader.readsOne_of_step
    ⟨"(?:".toList ++ (joinAlternatives (keywords.map escape) ++ (')' :: '\\' :: more)), .none,
      ⟨[], [.node (.anchor .wordEdge)]⟩, opened, groupCount, names⟩ rfl '(' _ _ rfl rfl
  have hclose := @PatternReader.readsOne_of_step
    ⟨')' :: '\\' :: more, .none, level,
      ⟨none, .none, ⟨[], [.node (.anchor .wordEdge)]⟩⟩ :: opened, groupCount, names⟩ rfl ')' _ _
    rfl rfl
  have htext : "(?:".toList ++ joinAlternatives (keywords.map escape) ++ [')'] ++ '\\' :: more =
      "(?:".toList ++ (joinAlternatives (keywords.map escape) ++ (')' :: '\\' :: more)) := by
    simp
  rw [htext]
  exact Relation.ReflTransGen.head hopen (hreads.tail hclose)

end Pattern

/-- The patterns of the table are plain. -/
theorem Category.plain_of_mem_table {colors : TokenColors} {keywords : List Text}
    {category : Category} (h : category ∈ table colors keywords) :
    Pattern.Plain category.pattern := by
  obtain ⟨kind, -, hkind⟩ := List.mem_filterMap.mp h
  cases kind with
  | character =>
    obtain rfl := Option.some.inj hkind
    exact Pattern.plain_characterPattern
  | number =>
    obtain rfl := Option.some.inj hkind
    exact Pattern.plain_numberPattern
  | keyword =>
    obtain ⟨pattern, hpattern, rfl⟩ := Option.map_eq_some_iff.mp hkind
    exact Pattern.plain_keywordPattern hpattern
  | typeName =>
    obtain rfl := Option.some.inj hkind
    exact Pattern.plain_typeNamePattern
  | string =>
    obtain rfl := Option.some.inj hkind
    exact Pattern.plain_stringPattern
  | comment =>
    obtain rfl := Option.some.inj hkind
    exact Pattern.plain_commentPattern

/-! ## Keywords that are too long -/

theorem Text.length_le_byteLength (text : Text) : text.length ≤ text.byteLength := by
  induction text with
  | nil => exact Nat.le_refl 0
  | cons c rest ih =>
    have hpos : 0 < c.utf8Size := Char.utf8Size_pos c
    rw [List.length_cons, byteLength]
    omega

namespace Node

/-- A keyword takes a state for each of its bytes. -/
theorem states_literal (text : Text) : (literal text).states = text.byteLength := by
  have hchar (c : Char) : (char (.only c)).states = c.utf8Size :=
    (Nat.zero_add _).trans (if_pos rfl)
  rw [literal, states_sequence, List.map_map]
  induction text with
  | nil => rfl
  | cons c rest ih =>
    rw [List.map_cons, List.sum_cons, ih, Function.comp_apply, hchar, Text.byteLength]

/-- The pattern of some keywords is as large as each of them at least. -/
theorem length_le_states_anyKeyword {keywords : List Text} {keyword : Text}
    (hmem : keyword ∈ keywords) : keyword.length ≤ (anyKeyword keywords).states := by
  have hpart : 1 + (literal keyword).states ∈
      (keywords.map literal).map fun node => 1 + node.states :=
    List.mem_map_of_mem (List.mem_map_of_mem hmem)
  have hle := List.le_sum_of_mem hpart
  have hlength := keyword.length_le_byteLength
  rw [states_literal] at hle
  have hedge : (anchor .wordEdge).states = 1 := rfl
  rw [anyKeyword, states_choice, List.map_singleton, List.sum_singleton, states_sequence]
  simp only [List.map_cons, List.map_nil, List.sum_cons, List.sum_nil, hedge, states_choice]
  omega

end Node

namespace Classifier

/-- A category is dropped if there is no room for its pattern alone. -/
theorem add_of_parse_ne_ok {categories : List Category} (baseStyle : Style) {category : Category}
    (hread : ∀ other ∈ categories ++ [category], ∃ own, Pattern.read other.pattern = .ok own)
    (hlarge : ∀ own, Pattern.parse category.pattern ≠ .ok own) :
    (ofCategories categories baseStyle).add category = ofCategories categories baseStyle := by
  cases hcompile : (Engine.compile (combinedSource
    ((ofCategories categories baseStyle).categories ++ [category])) : Except _ Pattern) with
  | error cause => exact add_of_error hcompile
  | ok joined =>
    have hmem : category ∈ (ofCategories (categories ++ [category]) baseStyle).categories := by
      rw [ofCategories_concat, add_of_ok hcompile]
      exact List.mem_concat_self
    obtain ⟨own, hown⟩ := exists_parse_of_mem baseStyle hread category hmem
    exact absurd hown (hlarge own)

/-- With a keyword that there is no room for, no keyword is looked for. -/
theorem ofCategories_table_of_long (colors : TokenColors) {keywords : List Text} {keyword : Text}
    (hmem : keyword ∈ keywords) (hlong : Pattern.room < keyword.length * Pattern.stateSize)
    (baseStyle : Style) :
    ofCategories (Category.table colors keywords) baseStyle =
      ofCategories (Category.table colors []) baseStyle := by
  have hne : keywords ≠ [] := List.ne_nil_of_mem hmem
  obtain ⟨category, hcategory⟩ : ∃ category,
      Category.forKind? colors keywords .keyword = some category := by
    cases hkind : Category.forKind? colors keywords .keyword with
    | none => exact absurd (Category.forKind?_eq_none hkind).2 hne
    | some category => exact ⟨category, rfl⟩
  -- The categories of the other kinds do not depend on the keywords.
  let earlier := [TokenKind.character, .number].filterMap (Category.forKind? colors keywords)
  let later := [TokenKind.typeName, .string, .comment].filterMap (Category.forKind? colors keywords)
  have htable : Category.table colors keywords = earlier ++ category :: later := by
    have hsplit : TokenKind.precedence =
        [.character, .number] ++ .keyword :: [.typeName, .string, .comment] := rfl
    rw [Category.table, hsplit, List.filterMap_append, List.filterMap_cons_some hcategory]
  have hnone : Category.table colors [] = earlier ++ later := rfl
  have hdropped : (ofCategories earlier baseStyle).add category =
      ofCategories earlier baseStyle := by
    refine add_of_parse_ne_ok baseStyle ?_ fun own hown => ?_
    · intro other hother
      have hgiven : other ∈ Category.table colors keywords := by
        rw [htable]
        rcases List.mem_append.mp hother with hearlier | hlast
        · exact List.mem_append_left _ hearlier
        · rw [List.mem_singleton.mp hlast]
          exact List.mem_append_cons_self
      obtain ⟨kind, -, hkind⟩ := List.mem_filterMap.mp hgiven
      exact ⟨_, Category.read_forKind? hkind⟩
    · obtain ⟨hread, hroom⟩ := Pattern.parse_eq_ok_iff.mp hown
      rw [← Except.ok.inj ((Category.read_forKind? hcategory).symm.trans hread)] at hroom
      unfold Pattern.hasRoom at hroom
      rw [decide_eq_true_eq] at hroom
      have hlength := Nat.mul_le_mul_right Pattern.stateSize
        (Node.length_le_states_anyKeyword hmem)
      exact absurd (Nat.le_trans hlength hroom) (Nat.not_le.mpr hlong)
  rw [htable, hnone]
  unfold ofCategories at hdropped ⊢
  rw [List.foldl_append, List.foldl_cons, hdropped, List.foldl_append]

end Classifier

end ScratchEditor

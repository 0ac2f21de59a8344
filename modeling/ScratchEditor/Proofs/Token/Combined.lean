import ScratchEditor.Proofs.Pattern.Reads
import ScratchEditor.Token.Classifier

/-!
# The combined pattern

The pattern that combines categories is a choice of capture groups, one for each
category that was accepted.  The group of a category holds the tree of its own
pattern, with the groups inside it numbered behind its own.

Main definitions:

- `Slot`: a category with the tree of its own pattern and the number of its group.
- `Combined`: how a combined pattern was read.

Main results:

- `Combined.add`: one more category that is accepted.
- `Slotted.concat`: categories one after the other.
-/

namespace ScratchEditor

/-! ## Names of groups -/

theorem isNameChar_of_isDigit {c : Char} (h : c.isDigit = true) :
    PatternReader.isNameChar false c = true := by
  have hbounds := toNat_of_isDigit h
  have hdecimal : isDecimalDigit c = true := by
    unfold isDecimalDigit CodeSet.has CharClass.decimalDigits
    rw [CodeSet.hasFrom, if_neg (by omega), CodeSet.hasFrom, if_pos (by omega)]
    rfl
  unfold PatternReader.isNameChar isAlphanumeric
  rw [hdecimal]
  simp

/-- Digits up to a closing angle bracket belong to a name. -/
theorem readName_digits {digits : Text} (h : ∀ c ∈ digits, c.isDigit = true) (rest : Text) :
    PatternReader.readName false (digits ++ '>' :: rest) = .ok (digits, rest) := by
  induction digits with
  | nil => rfl
  | cons c digits ih =>
    have hdigit := h c List.mem_cons_self
    have hne : c ≠ '>' := by
      rintro rfl
      cases hdigit
    rw [List.cons_append, PatternReader.readName, if_neg hne,
      if_pos (isNameChar_of_isDigit hdigit), ih fun d hd => h d (List.mem_cons_of_mem c hd)]
    rfl

/-- The name of the group of a category is read back. -/
theorem readName_groupName (position : Nat) (rest : Text) :
    PatternReader.readName true (groupName position ++ '>' :: rest) =
      .ok (groupName position, rest) := by
  have hdigits : ∀ c ∈ decimal position, c.isDigit = true := by
    intro c hc
    exact Nat.isDigit_of_mem_toDigits (by decide) (by decide) hc
  have hname : groupName position = 'c' :: 'a' :: 't' :: '_' :: decimal position := rfl
  have hc : PatternReader.isNameChar true 'c' = true := by decide +kernel
  have ha : PatternReader.isNameChar false 'a' = true := by decide +kernel
  have ht : PatternReader.isNameChar false 't' = true := by decide +kernel
  have hline : PatternReader.isNameChar false '_' = true := by decide +kernel
  rw [hname]
  simp only [List.cons_append, PatternReader.readName, hc, ha, ht, hline,
    readName_digits hdigits rest]
  rfl

/-! ## Slots -/

/-- A category in a combined pattern. -/
structure Slot where
  category : Category
  /-- The tree of the pattern of the category, read alone. -/
  node : Node
  /-- The number of the group of the category. -/
  index : Nat

/-- The alternative of a slot in the combined pattern. -/
def Slot.tree (slot : Slot) : Node :=
  .seq (.group slot.index (slot.node.shift slot.index)) .empty

/-- A group has been opened under a name that no group had before. -/
def FirstNamed (names : List (Text × Nat)) (name : Text) (index : Nat) : Prop :=
  ∃ later earlier, names = later ++ (name, index) :: earlier ∧ ∀ other ∈ earlier, other.1 ≠ name

/-- How the combined pattern of the categories of some slots was read. -/
structure Combined (slots : List Slot) (reader : PatternReader) : Prop where
  /-- Every slot has the tree of the pattern of its category. -/
  alone : ∀ slot ∈ slots, ∃ own, Pattern.Alone slot.category.pattern own ∧
    slot.node = own.level.finish
  /-- The pattern has been read up to what follows it. -/
  reads : ∀ more, PatternReader.Reads
    (.start (combinedSource (slots.map Slot.category) ++ more)) { reader with rest := more }
  opened : reader.opened = []
  flags : reader.flags = .none
  /-- Without slots nothing has been read. -/
  level_nil : slots = [] → reader.level = .empty
  /-- The alternatives are those of the slots. -/
  level_cons : slots ≠ [] →
    reader.level.current :: reader.level.alternatives = (slots.map Slot.tree).reverse
  /-- The groups are numbered in order. -/
  sorted : slots.Pairwise fun a b => a.index < b.index
  index_pos : ∀ slot ∈ slots, 0 < slot.index
  index_le : ∀ slot ∈ slots, slot.index ≤ reader.groupCount
  /-- The groups are named by position. -/
  named : ∀ i slot, slots[i]? = some slot → FirstNamed reader.names (groupName i) slot.index

theorem combined_nil : Combined [] (.start []) where
  alone := by simp
  reads := fun _ => Relation.ReflTransGen.refl
  opened := rfl
  flags := rfl
  level_nil := fun _ => rfl
  level_cons := fun h => absurd rfl h
  sorted := List.Pairwise.nil
  index_pos := by simp
  index_le := by simp
  named := by simp

theorem combinedFrom_append (position : Nat) (categories : List Category) (category : Category) :
    combinedFrom position (categories ++ [category]) =
      combinedFrom position categories ++
        [categoryAlternative (position + categories.length) category] := by
  induction categories generalizing position with
  | nil => rfl
  | cons first rest ih =>
    have hposition : position + (first :: rest).length = position + 1 + rest.length := by
      rw [List.length_cons]
      omega
    rw [hposition]
    exact congrArg (categoryAlternative position first :: ·) (ih (position + 1))

theorem joinAlternatives_append {texts : List Text} (h : texts ≠ []) (last : Text) :
    joinAlternatives (texts ++ [last]) = joinAlternatives texts ++ '|' :: last := by
  induction texts with
  | nil => exact absurd rfl h
  | cons first rest ih =>
    cases rest with
    | nil => rfl
    | cons second rest =>
      have hcons : joinAlternatives (first :: second :: rest ++ [last]) =
          first ++ '|' :: joinAlternatives (second :: rest ++ [last]) := rfl
      rw [hcons, ih (List.cons_ne_nil _ _)]
      have hjoin : joinAlternatives (first :: second :: rest) =
          first ++ '|' :: joinAlternatives (second :: rest) := rfl
      rw [hjoin, List.append_assoc]
      rfl

/-- The combined pattern of one more category ends with its alternative. -/
theorem combinedSource_append (categories : List Category) (category : Category) :
    combinedSource (categories ++ [category]) =
      combinedSource categories ++ ((if categories = [] then [] else ['|']) ++
        categoryAlternative categories.length category) := by
  unfold combinedSource
  rw [combinedFrom_append, Nat.zero_add]
  cases categories with
  | nil => rfl
  | cons first rest =>
    have hne : combinedFrom 0 (first :: rest) ≠ [] := List.cons_ne_nil _ _
    rw [joinAlternatives_append hne, if_neg (List.cons_ne_nil _ _)]
    rfl

namespace Combined

variable {slots : List Slot} {reader : PatternReader}

/-- The level before the group of the next category. -/
def nextLevel (slots : List Slot) (reader : PatternReader) : PatternLevel :=
  if slots = [] then reader.level else reader.level.nextAlternative

/-- Reading on to the alternative of the next category. -/
theorem reads_separator (h : Combined slots reader) (more : Text) :
    PatternReader.Reads
      { reader with rest := (if slots.map Slot.category = [] then [] else ['|']) ++ more }
      { reader with level := nextLevel slots reader, rest := more } := by
  unfold nextLevel
  cases hslots : slots with
  | nil => exact Relation.ReflTransGen.refl
  | cons first rest =>
    refine Relation.ReflTransGen.single ⟨'|', more, ?_, rfl⟩
    dsimp only
    rw [h.flags]
    rfl

/-- The alternatives before the group of the next category, in order. -/
theorem alternatives_nextLevel (h : Combined slots reader) :
    (nextLevel slots reader).alternatives = (slots.map Slot.tree).reverse ∧
      (nextLevel slots reader).items = [] := by
  unfold nextLevel
  by_cases hslots : slots = []
  · rw [if_pos hslots, h.level_nil hslots, hslots]
    exact ⟨rfl, rfl⟩
  · rw [if_neg hslots]
    exact ⟨h.level_cons hslots, rfl⟩

/-- The reader in the group of the next category, before its pattern. -/
def entered (slots : List Slot) (reader : PatternReader) (rest : Text) : PatternReader :=
  { reader with level := nextLevel slots reader }.enter (groupName slots.length) rest

/-- The group of the next category is opened if its name is new. -/
theorem step_alternative (h : Combined slots reader) (before pattern more : Text) :
    { reader with level := nextLevel slots reader, rest := before }.step '('
        ("?P<".toList ++ groupName slots.length ++ '>' :: pattern ++ [')'] ++ more) =
      if reader.names.any (·.1 == groupName slots.length) then .error .repeatedName
      else .ok (entered slots reader (pattern ++ ')' :: more)) := by
  have hstep : { reader with level := nextLevel slots reader, rest := before }.step '('
      ("?P<".toList ++ groupName slots.length ++ '>' :: pattern ++ [')'] ++ more) =
      { reader with level := nextLevel slots reader }.openNamed
        (groupName slots.length ++ '>' :: (pattern ++ ')' :: more)) := by
    have htext : "?P<".toList ++ groupName slots.length ++ '>' :: pattern ++ [')'] ++ more =
        '?' :: 'P' :: '<' :: (groupName slots.length ++ '>' :: (pattern ++ ')' :: more)) := by
      simp
    have hread (text : Text) :
        { reader with level := nextLevel slots reader, rest := before }.step '(' text =
          { reader with level := nextLevel slots reader }.groupOpening (reader.flags.skip text) :=
      rfl
    rw [htext, hread, h.flags]
    rfl
  rw [hstep, PatternReader.openNamed_eq (readName_groupName _ _)]
  rfl

/-- The reader behind the group of the next category. -/
def added (slots : List Slot) (reader own : PatternReader) (more : Text) : PatternReader :=
  Pattern.closed own (entered slots reader [])
    ⟨some (reader.groupCount + 1), reader.flags, nextLevel slots reader⟩ reader.opened more

/-- Reading up to the alternative of the next category. -/
theorem reads_before (h : Combined slots reader) (category : Category) (more : Text) :
    PatternReader.Reads
      (.start (combinedSource (slots.map Slot.category ++ [category]) ++ more))
      { reader with
        level := nextLevel slots reader
        rest := categoryAlternative slots.length category ++ more } := by
  have hsource : combinedSource (slots.map Slot.category ++ [category]) ++ more =
      combinedSource (slots.map Slot.category) ++
        ((if slots.map Slot.category = [] then [] else ['|']) ++
          (categoryAlternative slots.length category ++ more)) := by
    rw [combinedSource_append, List.length_map]
    simp only [List.append_assoc]
  rw [hsource]
  exact (h.reads _).trans (h.reads_separator _)

/-- The alternative of a category opens a group. -/
theorem skip_alternative (h : Combined slots reader) (category : Category) (more : Text) :
    reader.flags.skip (categoryAlternative slots.length category ++ more) =
      '(' ::
        ("?P<".toList ++ groupName slots.length ++ '>' :: category.pattern ++ [')'] ++ more) := by
  rw [h.flags]
  rfl

/-- Reading into the group of the next category, if its name is new. -/
theorem reads_entered (h : Combined slots reader) (category : Category) (more : Text)
    (hnew : ¬ reader.names.any (·.1 == groupName slots.length) = true) :
    PatternReader.Reads
      (.start (combinedSource (slots.map Slot.category ++ [category]) ++ more))
      (entered slots reader (category.pattern ++ ')' :: more)) := by
  have hstep := h.step_alternative (categoryAlternative slots.length category ++ more)
    category.pattern more
  rw [if_neg hnew] at hstep
  exact (h.reads_before category more).tail ⟨'(', _, h.skip_alternative category more, hstep⟩

/-- No further group takes a name that was given before. -/
theorem stuck_of_named (h : Combined slots reader) (category : Category)
    (hrepeated : reader.names.any (·.1 == groupName slots.length) = true) :
    PatternReader.Stuck (.start (combinedSource (slots.map Slot.category ++ [category]))) := by
  have hstep := h.step_alternative (categoryAlternative slots.length category ++ [])
    category.pattern []
  rw [if_pos hrepeated] at hstep
  have hbefore := h.reads_before category []
  rw [List.append_nil] at hbefore
  exact (PatternReader.stuck_of_error (h.skip_alternative category []) hstep).of_reads hbefore

/--
The next category is read behind those before, whatever follows, or the pattern that ends
with it cannot be read.
-/
theorem reads_next (h : Combined slots reader) {category : Category} {own : PatternReader}
    (halone : Pattern.Alone category.pattern own) :
    ((∀ more, PatternReader.Reads
        (.start (combinedSource (slots.map Slot.category ++ [category]) ++ more))
        (added slots reader own more)) ∧
      ¬ reader.names.any (·.1 == groupName slots.length) = true) ∨
    PatternReader.Stuck (.start (combinedSource (slots.map Slot.category ++ [category]))) := by
  by_cases hrepeated : reader.names.any (·.1 == groupName slots.length) = true
  · exact Or.inr (h.stuck_of_named category hrepeated)
  · rcases halone.reads_group (entered slots reader []) h.flags rfl rfl with
      hreads | hstuck
    · exact Or.inl ⟨fun more => (h.reads_entered category more hrepeated).trans (hreads more),
        hrepeated⟩
    · right
      have hinside := h.reads_entered category [] hrepeated
      rw [List.append_nil] at hinside
      exact hstuck.of_reads hinside

/-- The slot of the next category. -/
def nextSlot (reader own : PatternReader) (category : Category) : Slot :=
  ⟨category, own.level.finish, reader.groupCount + 1⟩

theorem not_named_of_any {names : List (Text × Nat)} {name : Text}
    (h : ¬ names.any (·.1 == name) = true) : ∀ other ∈ names, other.1 ≠ name := by
  intro other hmem heq
  exact h (List.any_eq_true.mpr ⟨other, hmem, beq_iff_eq.mpr heq⟩)

/-- The group of the next category is the last of the alternatives. -/
theorem alternatives_added (h : Combined slots reader) (own : PatternReader)
    (category : Category) :
    (added slots reader own []).level.current :: (added slots reader own []).level.alternatives =
      ((slots ++ [nextSlot reader own category]).map Slot.tree).reverse := by
  obtain ⟨halternatives, hitems⟩ := h.alternatives_nextLevel
  have hcurrent : (added slots reader own []).level.current =
      (nextSlot reader own category).tree := by
    have hlevel : (added slots reader own []).level.items =
        .node (.group (reader.groupCount + 1) (own.level.finish.shift (reader.groupCount + 1)))
          :: (nextLevel slots reader).items := rfl
    unfold PatternLevel.current
    rw [hlevel, hitems]
    rfl
  have hbefore : (added slots reader own []).level.alternatives =
      (nextLevel slots reader).alternatives := rfl
  rw [hcurrent, hbefore, halternatives, List.map_append, List.reverse_append]
  rfl

/-- The groups of the categories keep their names, and that of the next one is named by its
position. -/
theorem named_added (h : Combined slots reader) (own : PatternReader) (category : Category)
    (hnew : ¬ reader.names.any (·.1 == groupName slots.length) = true) (i : Nat) (slot : Slot)
    (hslot : (slots ++ [nextSlot reader own category])[i]? = some slot) :
    FirstNamed (added slots reader own []).names (groupName i) slot.index := by
  have hnames : (added slots reader own []).names =
      own.names.map (fun name => (name.1, name.2 + (reader.groupCount + 1))) ++
        (groupName slots.length, reader.groupCount + 1) :: reader.names := rfl
  rw [hnames]
  by_cases hi : i < slots.length
  · rw [List.getElem?_append_left hi] at hslot
    obtain ⟨later, earlier, hsplit, hearlier⟩ := h.named i slot hslot
    refine ⟨own.names.map (fun name => (name.1, name.2 + (reader.groupCount + 1))) ++
      (groupName slots.length, reader.groupCount + 1) :: later, earlier, ?_, hearlier⟩
    rw [hsplit, List.append_assoc]
    rfl
  · rw [List.getElem?_append_right (by omega)] at hslot
    have hi' : i = slots.length := by
      have hlt := (List.getElem?_eq_some_iff.mp hslot).1
      rw [List.length_singleton] at hlt
      omega
    subst hi'
    rw [Nat.sub_self] at hslot
    obtain rfl := Option.some.inj hslot
    exact ⟨_, reader.names, rfl, not_named_of_any hnew⟩

/-- One more category whose group has been read and whose name is new. -/
theorem combined_added (h : Combined slots reader) {category : Category} {own : PatternReader}
    (halone : Pattern.Alone category.pattern own)
    (hreads : ∀ more, PatternReader.Reads
      (.start (combinedSource (slots.map Slot.category ++ [category]) ++ more))
      (added slots reader own more))
    (hnew : ¬ reader.names.any (·.1 == groupName slots.length) = true) :
    Combined (slots ++ [nextSlot reader own category]) (added slots reader own []) where
  alone := by
    intro slot hmem
    rcases List.mem_append.mp hmem with hold | hnext
    · exact h.alone slot hold
    · rw [List.mem_singleton.mp hnext]
      exact ⟨own, halone, rfl⟩
  reads := by
    intro more
    rw [List.map_append]
    exact hreads more
  opened := h.opened
  flags := h.flags
  level_nil := by
    intro hnil
    exact absurd hnil (by simp)
  level_cons := fun _ => h.alternatives_added own category
  sorted := by
    rw [List.pairwise_append]
    refine ⟨h.sorted, List.pairwise_singleton _ _, ?_⟩
    intro a ha b hb
    rw [List.mem_singleton.mp hb]
    exact Nat.lt_succ_of_le (h.index_le a ha)
  index_pos := by
    intro slot hmem
    rcases List.mem_append.mp hmem with hold | hnext
    · exact h.index_pos slot hold
    · rw [List.mem_singleton.mp hnext]
      exact Nat.succ_pos _
  index_le := by
    intro slot hmem
    have hcount : (added slots reader own []).groupCount =
        own.groupCount + (reader.groupCount + 1) := rfl
    rw [hcount]
    rcases List.mem_append.mp hmem with hold | hnext
    · have hle := h.index_le slot hold
      omega
    · rw [List.mem_singleton.mp hnext]
      exact Nat.le_add_left _ _
  named := h.named_added own category hnew

/-- A category that is accepted becomes the last slot. -/
theorem add (h : Combined slots reader) {category : Category} {own : PatternReader}
    (halone : Pattern.Alone category.pattern own) {pattern : Pattern}
    (hread : Pattern.read (combinedSource (slots.map Slot.category ++ [category])) = .ok pattern) :
    Combined (slots ++ [nextSlot reader own category]) (added slots reader own []) ∧
      pattern = Pattern.ofReader (added slots reader own []) := by
  obtain ⟨last, hlast, hfinal, hopened, hpattern⟩ := Pattern.read_eq_ok_iff.mp hread
  rcases h.reads_next halone with ⟨hreads, hnew⟩ | hstuck
  · have hends : (added slots reader own []).Final := by
      have hflags : (added slots reader own []).flags = .none := h.flags
      unfold PatternReader.Final
      rw [hflags]
      rfl
    have hreads' := hreads []
    rw [List.append_nil] at hreads'
    have hsame : added slots reader own [] = last :=
      hfinal.eq_of_reads (PatternReader.Reads.continue hreads' hends hlast)
    exact ⟨h.combined_added halone hreads hnew, by rw [hpattern, hsame]⟩
  · exact absurd hopened (hstuck last hlast hfinal)

end Combined

/-! ## Categories one after the other -/

/-- Categories and the pattern that combines them come from slots. -/
def Slotted (categories : List Category) (combined : Option Pattern) (slots : List Slot) : Prop :=
  ∃ reader, Combined slots reader ∧ categories = slots.map Slot.category ∧
    combined = if slots = [] then none else some (Pattern.ofReader reader)

theorem slotted_nil : Slotted [] none [] :=
  ⟨_, combined_nil, rfl, rfl⟩

/-- A category whose pattern can be read alone takes the next slot if the combined pattern can be
read with it. -/
theorem Slotted.concat {categories : List Category} {combined : Option Pattern} {slots : List Slot}
    (h : Slotted categories combined slots) {category : Category} {own joined : Pattern}
    (hown : Pattern.read category.pattern = .ok own)
    (hjoined : Pattern.read (combinedSource (categories ++ [category])) = .ok joined) :
    ∃ slot, Slotted (categories ++ [category]) (some joined) (slots ++ [slot]) := by
  obtain ⟨reader, hcombined, rfl, -⟩ := h
  obtain ⟨last, hreads, hfinal, hopened, -⟩ := Pattern.read_eq_ok_iff.mp hown
  obtain ⟨hnext, heq⟩ := hcombined.add ⟨hreads, hfinal, hopened⟩ hjoined
  refine ⟨_, _, hnext, ?_, ?_⟩
  · rw [List.map_append]
    rfl
  · rw [if_neg (by simp), heq]

end ScratchEditor

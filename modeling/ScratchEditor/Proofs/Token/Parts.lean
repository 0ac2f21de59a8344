import ScratchEditor.Proofs.Text.Lines
import ScratchEditor.Proofs.Token.Table

/-!
# Parts of a text

The highlighter scans lines of a text as a text of their own.  Where the scan of the whole
text has no token across the ends of these lines, both scans find the same tokens in them.

Main definitions:

- `Part`: lines of a text, with the text around them.
- `Node.AgreesAt`: a tree prefers the same way in a part as in the whole.
- `Part.KeywordEnds`: where the keywords of a part end as those of the text do.

Main results:

- `Part.keywordEnds`: the keywords of a part end as those of the text do.
- `Part.agreesAt_forKind`: the trees of the table prefer the same ways on these lines.
-/

namespace ScratchEditor

/--
Lines of a text, with what stands before them, and the rest of a part that begins with them.
No word goes on behind the part.
-/
structure Part (text before lines rest after : Text) : Prop where
  text_eq : text = before ++ (lines ++ (rest ++ after))
  begins : before.EndsLine
  ends : lines.EndsLine ∨ rest = [] ∧ after = []
  closes : (lines ++ rest).EndsLine ∨ ∀ c ∈ after.head?, isWordChar c = false

/-! ## Ways in a part -/

/-- From a place and its counterpart in a part, a tree prefers the same way to some ends. -/
def Node.AgreesAt (distance : Nat) (fits : Nat → Prop) (place place' : Place) (node : Node) :
    Prop :=
  (node.ways place = [] → node.ways place' = []) ∧
    ∀ next ∈ (node.ways place).head?, fits next.offset →
      ∃ next' ∈ (node.ways place').head?, next.offset = next'.offset + distance

namespace Node

variable {distance : Nat} {fits : Nat → Prop} {place place' : Place}

/-- If ways follow a cut, the preferred ways agree up to the cut. -/
theorem agreesAt_of_follows {related : Place → Place → Prop} {more : Text} {node : Node}
    (hcut : ∀ a b, related a b → Place.Cut distance more a b)
    (hfollows : Ways.Follows related more node.ways node.ways) (hrelated : related place place')
    (hlimit : ∀ next ∈ node.ways place, fits next.offset → next.standsBefore more = true) :
    node.AgreesAt distance fits place place' := by
  have hways := hfollows place place' hrelated
  constructor
  · intro hnone
    rw [hnone, List.filter_nil] at hways
    exact List.forall₂_nil_left_iff.mp hways
  · intro next hhead hle
    obtain ⟨others, hothers⟩ := List.head?_eq_some_iff.mp hhead
    have hstands := hlimit next (List.mem_of_head? hhead) hle
    rw [hothers, List.filter_cons_of_pos hstands] at hways
    obtain ⟨next', others', hnext, -, hways'⟩ := List.forall₂_cons_left_iff.mp hways
    refine ⟨next', ?_, (hcut next next' hnext).offset⟩
    rw [hways']
    rfl

theorem agreesAt_either {first second : Node} (hfirst : first.AgreesAt distance fits place place')
    (hsecond : second.AgreesAt distance fits place place') :
    (either first second).AgreesAt distance fits place place' := by
  have hways (place : Place) : (either first second).ways place =
      first.ways place ++ second.ways place := rfl
  constructor
  · intro hnone
    rw [hways, List.append_eq_nil_iff] at hnone
    rw [hways, hfirst.1 hnone.1, hsecond.1 hnone.2]
    rfl
  · intro next hhead hle
    rw [hways] at hhead ⊢
    cases hone : first.ways place with
    | nil =>
      rw [hone] at hhead
      rw [hfirst.1 hone]
      exact hsecond.2 next hhead hle
    | cons preferred others =>
      rw [hone] at hhead
      have hsome : next ∈ (first.ways place).head? := by
        rw [hone]
        exact hhead
      obtain ⟨next', hnext', hoffset⟩ := hfirst.2 next hsome hle
      refine ⟨next', ?_, hoffset⟩
      rw [List.head?_append, hnext', Option.some_or]
      rfl

/-- Alternatives agree if each of them does. -/
theorem agreesAt_choice {nodes : List Node}
    (h : ∀ node ∈ nodes, node.AgreesAt distance fits place place') :
    (choice nodes).AgreesAt distance fits place place' := by
  induction nodes with
  | nil =>
    constructor
    · exact fun _ => rfl
    · intro next hhead
      cases hhead
  | cons node nodes ih =>
    apply agreesAt_either
    · exact h node List.mem_cons_self
    · exact ih fun other hmem => h other (List.mem_cons_of_mem node hmem)

end Node

namespace Part

variable {text before lines rest after : Text}

/-- The whole text is a part of itself. -/
theorem length_text (h : Part text before lines rest after) :
    text.length = before.length + (lines.length + (rest.length + after.length)) := by
  simp [h.text_eq]

/-- A place on the lines stands in the part as it stands in the text. -/
theorem lineCut (h : Part text before lines rest after) {k : Nat} (hk : k < lines.length) :
    Place.LineCut before.length after (Place.at_ text (before.length + k))
      (Place.at_ (lines ++ rest) k) := by
  have hdrop : text.drop (before.length + k) = (lines ++ rest).drop k ++ after := by
    rw [h.text_eq, List.drop_length_add_append, List.drop_append_of_le_length (Nat.le_of_lt hk),
      List.drop_append_of_le_length (Nat.le_of_lt hk), List.append_assoc]
  have htake : text.take (before.length + k) = before ++ (lines ++ rest).take k := by
    rw [h.text_eq, List.take_length_add_append, List.take_append_of_le_length (Nat.le_of_lt hk),
      List.take_append_of_le_length (Nat.le_of_lt hk)]
  refine ⟨⟨⟨Nat.add_comm _ _, hdrop⟩, ?_⟩, ?_⟩
  · unfold Place.at_
    dsimp only
    rw [htake, List.getLast?_append]
    cases hlast : ((lines ++ rest).take k).getLast? with
    | some c => rfl
    | none =>
      rw [Option.none_or]
      cases hbefore : before.getLast? with
      | none => rfl
      | some c =>
        rw [h.begins c hbefore]
        decide +kernel
  · rcases h.ends with hline | ⟨-, hnone⟩
    · left
      have hne : lines.drop k ≠ [] := by
        apply List.ne_nil_of_length_pos
        rw [List.length_drop]
        omega
      have hlast : (lines.drop k).getLast? = lines.getLast? := by
        rw [List.getLast?_drop, if_neg (Nat.not_le.mpr hk)]
      have hfeed : (lines.drop k).getLast hne = '\n' := by
        apply hline
        rw [← hlast]
        exact List.getLast?_eq_some_getLast hne
      have hmem : '\n' ∈ lines.drop k := by
        rw [← hfeed]
        exact List.getLast_mem hne
      unfold Place.at_
      dsimp only
      rw [List.drop_append_of_le_length (Nat.le_of_lt hk)]
      exact List.mem_append_left _ hmem
    · exact Or.inr hnone

/-- A way that ends on the lines stands before the end of the part. -/
theorem standsBefore (h : Part text before lines rest after) {node : Node} {k : Nat}
    (hk : k < lines.length) {next : Place}
    (hmem : next ∈ node.ways (Place.at_ text (before.length + k)))
    (hle : next.offset ≤ before.length + lines.length) : next.standsBefore after = true := by
  have htotal := (node.forward_of_mem_ways _ next hmem).total
  have hlength := h.length_text
  unfold Place.at_ at htotal
  dsimp only at htotal
  rw [List.length_drop] at htotal
  unfold Place.standsBefore
  rw [decide_eq_true_eq]
  omega

variable {fits : Nat → Prop}

/-- A tree that asks for no condition agrees on the lines. -/
theorem agreesAt_of_cut (h : Part text before lines rest after) {k : Nat} (hk : k < lines.length)
    (hfits : ∀ stop, fits stop → stop ≤ before.length + lines.length) {node : Node}
    (hleaves : node.leaves (fun _ => true) (fun _ => false) = true) :
    node.AgreesAt before.length fits (Place.at_ text (before.length + k))
      (Place.at_ (lines ++ rest) k) := by
  apply Node.agreesAt_of_follows (fun _ _ hcut => hcut) (Node.follows_cut _ _ hleaves)
  · exact (h.lineCut hk).toCut
  · exact fun next hmem hnext => h.standsBefore hk hmem (hfits _ hnext)

/-- A tree that stays on a line agrees on the lines. -/
theorem agreesAt_of_line (h : Part text before lines rest after) {k : Nat} (hk : k < lines.length)
    (hfits : ∀ stop, fits stop → stop ≤ before.length + lines.length) {node : Node}
    (hleaves : node.leaves (fun own => !own.has '\n') (· == .wordEdge) = true) :
    node.AgreesAt before.length fits (Place.at_ text (before.length + k))
      (Place.at_ (lines ++ rest) k) := by
  apply Node.agreesAt_of_follows (fun _ _ hcut => hcut.toCut) (Node.follows_line _ _ hleaves)
  · exact h.lineCut hk
  · exact fun next hmem hnext => h.standsBefore hk hmem (hfits _ hnext)

end Part

/-! ## Open comments -/

namespace Node

theorem mem_ways_seq {first second : Node} {place next : Place} :
    next ∈ (seq first second).ways place ↔
      ∃ middle ∈ first.ways place, next ∈ second.ways middle :=
  List.mem_flatMap

theorem mem_ways_char {set : CharSet} {place next : Place} :
    next ∈ (char set).ways place ↔ ∃ c rest, place.rest = c :: rest ∧ set.has c = true ∧
      next = ⟨some c, rest, place.offset + 1, place.groups⟩ :=
  Option.mem_toList.trans Place.take?_eq_some

/-- A round of all characters moves on by the next one. -/
theorem exists_mem_ways_every {place : Place} {c : Char} {rest : Text}
    (hrest : place.rest = c :: rest) :
    ∃ middle ∈ (char .every).ways place, middle.rest = rest ∧ middle.offset ≠ place.offset := by
  have hhas : CharSet.every.has c = true := by
    simp [CharSet.every, CharSet.has]
  exact ⟨_, mem_ways_char.mpr ⟨c, rest, hrest, hhas, rfl⟩, rfl, Nat.succ_ne_self _⟩

/-- Further rounds of all characters may lead to the end of the text. -/
theorem exists_mem_further {fuel : Nat} {place : Place} (hfuel : place.rest.length ≤ fuel) :
    ∃ next ∈ Ways.further (char .every).ways true fuel place, next.rest = [] := by
  induction fuel generalizing place with
  | zero =>
    exact ⟨place, List.mem_singleton_self place,
      List.length_eq_zero_iff.mp (Nat.le_zero.mp hfuel)⟩
  | succ fuel ih =>
    cases hrest : place.rest with
    | nil => exact ⟨place, Ways.mem_prefer.mpr (Or.inr (List.mem_singleton_self place)), hrest⟩
    | cons c rest =>
      obtain ⟨middle, hmiddle, rfl, hmoves⟩ := exists_mem_ways_every hrest
      rw [hrest, List.length_cons] at hfuel
      obtain ⟨next, hmem, hnext⟩ := ih (Nat.le_of_succ_le_succ hfuel)
      refine ⟨next, Ways.mem_prefer.mpr (Or.inl (List.mem_flatMap.mpr ⟨middle, hmiddle, ?_⟩)),
        hnext⟩
      rw [if_neg hmoves]
      exact hmem

/-- A run of all characters may lead to the end of the text. -/
theorem exists_mem_ways_many (place : Place) :
    ∃ next ∈ (many .every).ways place, next.rest = [] := by
  have hways : (many .every).ways place =
      Ways.prefer true (Ways.atLeastOnce (char .every).ways true place) [place] := rfl
  rw [hways]
  cases hrest : place.rest with
  | nil => exact ⟨place, Ways.mem_prefer.mpr (Or.inr (List.mem_singleton_self place)), hrest⟩
  | cons c rest =>
    obtain ⟨middle, hmiddle, -, hmoves⟩ := exists_mem_ways_every hrest
    obtain ⟨next, hmem, hnext⟩ := exists_mem_further (Nat.le_refl middle.rest.length)
    refine ⟨next, Ways.mem_prefer.mpr (Or.inl (List.mem_flatMap.mpr ⟨middle, hmiddle, ?_⟩)),
      hnext⟩
    rw [if_neg hmoves]
    exact hmem

theorem mem_ways_anchor {condition : Anchor} {place next : Place} :
    next ∈ (anchor condition).ways place ↔ place.satisfies condition = true ∧ next = place := by
  have hways : (anchor condition).ways place =
      if place.satisfies condition then [place] else [] := rfl
  rw [hways]
  by_cases hholds : place.satisfies condition = true
  · simp [hholds]
  · simp [hholds]

theorem satisfies_textStop {place : Place} :
    place.satisfies .textStop = true ↔ place.rest = [] := by
  unfold Place.satisfies Anchor.holds
  cases place.rest <;> simp

/-- An open comment begins with a slash and a star, and runs to the end of the text. -/
theorem rest_of_mem_ways_openComment {place next : Place} (h : next ∈ openComment.ways place) :
    next.rest = [] ∧ ∃ rest, place.rest = '/' :: '*' :: rest := by
  obtain ⟨first, hfirst, hbehindFirst⟩ := mem_ways_seq.mp h
  obtain ⟨second, hsecond, hbehindSecond⟩ := mem_ways_seq.mp hbehindFirst
  obtain ⟨last, -, hbehindLast⟩ := mem_ways_seq.mp hbehindSecond
  obtain ⟨place', hstop, hempty⟩ := mem_ways_seq.mp hbehindLast
  have hlast : next = place' := List.mem_singleton.mp hempty
  obtain ⟨hrest, rfl⟩ := mem_ways_anchor.mp hstop
  obtain ⟨c, rest, hrest', hslash, rfl⟩ := mem_ways_char.mp hfirst
  obtain ⟨d, rest', hrest'', hstar, rfl⟩ := mem_ways_char.mp hsecond
  rw [CharSet.has_only, decide_eq_true_eq] at hslash hstar
  dsimp only at hrest''
  refine ⟨by rw [hlast]; exact satisfies_textStop.mp hrest, rest', ?_⟩
  rw [hrest', hrest'', hslash, hstar]

/-- Behind a slash and a star there is an open comment. -/
theorem ways_openComment_ne_nil {place : Place} {rest : Text}
    (h : place.rest = '/' :: '*' :: rest) : openComment.ways place ≠ [] := by
  have hslash : (CharSet.only '/').has '/' = true := by simp
  have hstar : (CharSet.only '*').has '*' = true := by simp
  obtain ⟨last, hlast, hrest⟩ := exists_mem_ways_many
    ⟨some '*', rest, place.offset + 1 + 1, place.groups⟩
  apply List.ne_nil_of_mem (a := last)
  refine mem_ways_seq.mpr ⟨_, mem_ways_char.mpr ⟨_, _, h, hslash, rfl⟩, ?_⟩
  refine mem_ways_seq.mpr ⟨_, mem_ways_char.mpr ⟨_, _, rfl, hstar, rfl⟩, ?_⟩
  refine mem_ways_seq.mpr ⟨last, hlast, ?_⟩
  refine mem_ways_seq.mpr ⟨last, mem_ways_anchor.mpr ⟨satisfies_textStop.mpr hrest, rfl⟩, ?_⟩
  exact List.mem_singleton_self last

end Node

namespace Part

variable {text before lines rest after : Text} {k : Nat} {fits : Nat → Prop}

/--
An open comment agrees on the lines: it ends on them only if they end the text.
-/
theorem agreesAt_openComment (h : Part text before lines rest after) (hk : k < lines.length)
    (hfits : ∀ stop, fits stop → stop ≤ before.length + lines.length) :
    Node.openComment.AgreesAt before.length fits (Place.at_ text (before.length + k))
      (Place.at_ (lines ++ rest) k) := by
  have hcut := (h.lineCut hk).toCut
  constructor
  · intro hnone
    rw [List.eq_nil_iff_forall_not_mem]
    intro next hmem
    obtain ⟨-, rest', hrest⟩ := Node.rest_of_mem_ways_openComment hmem
    have hwhole : (Place.at_ text (before.length + k)).rest = '/' :: '*' :: (rest' ++ after) := by
      rw [hcut.rest, hrest]
      rfl
    exact Node.ways_openComment_ne_nil hwhole hnone
  · intro next hhead hnext
    have hmem := List.mem_of_head? hhead
    obtain ⟨hend, -⟩ := Node.rest_of_mem_ways_openComment hmem
    have hstands := h.standsBefore hk hmem (hfits _ hnext)
    have hafter : after = [] := by
      unfold Place.standsBefore at hstands
      rw [hend, decide_eq_true_eq] at hstands
      exact List.length_eq_zero_iff.mp (Nat.le_zero.mp hstands)
    subst hafter
    have hagrees : Node.openComment.AgreesAt before.length fits
        (Place.at_ text (before.length + k)) (Place.at_ (lines ++ rest) k) :=
      Node.agreesAt_of_follows (fun _ _ hcut => hcut)
        (Node.follows_shift before.length (by decide +kernel)) hcut
        fun next hmem hnext => h.standsBefore hk hmem (hfits _ hnext)
    exact hagrees.2 next hhead hnext

end Part

/-! ## Keywords -/

/--
Ends of tokens at which the keywords that a part has on its lines are those of the text:
wherever a token ends on the lines, except perhaps where the lines themselves end.
-/
structure Part.KeywordEnds (text before lines rest : Text) (keywords : List Text)
    (fits : Nat → Prop) : Prop where
  le : ∀ stop, fits stop → stop ≤ before.length + lines.length
  inside : ∀ stop < before.length + lines.length, fits stop
  agrees : ∀ k < lines.length, (Node.anyKeyword keywords).AgreesAt before.length fits
    (Place.at_ text (before.length + k)) (Place.at_ (lines ++ rest) k)

namespace Part

variable {text before lines rest after : Text} {k : Nat} {fits : Nat → Prop}

/-- Keywords without line feeds agree wherever they end on the lines. -/
theorem keywordEnds_of_line (h : Part text before lines rest after) {keywords : List Text}
    (hkeywords : ∀ keyword ∈ keywords, '\n' ∉ keyword) :
    KeywordEnds text before lines rest keywords (· ≤ before.length + lines.length) where
  le := fun _ hle => hle
  inside := fun _ hlt => Nat.le_of_lt hlt
  agrees := fun _ hk =>
    h.agreesAt_of_line hk (fun _ hle => hle) (Node.leaves_anyKeyword hkeywords)

/-- What a tree finds in a part ends at a place of the part. -/
theorem at_of_mem_ways (hk : k < lines.length) {node : Node} {next : Place}
    (hmem : next ∈ node.ways (Place.at_ (lines ++ rest) k)) : next.At (lines ++ rest) := by
  refine (node.forward_of_mem_ways _ next hmem).at_ _ (Place.at_at ?_)
  rw [List.length_append]
  omega

/-- Where a word begins or ends in the part, one does in the text. -/
theorem wordEdge_of_part (h : Part text before lines rest after) {place place' : Place}
    (hcut : Place.WordCut before.length after place place') (hat : place'.At (lines ++ rest))
    (hedge : place'.satisfies .wordEdge = true) : place.satisfies .wordEdge = true := by
  cases hrest : place'.rest with
  | cons c later =>
    rw [hcut.wordEdge_eq (Or.inl (by rw [hrest]; exact List.cons_ne_nil _ _))]
    exact hedge
  | nil =>
    rcases h.closes with hclose | hword
    · -- Behind the line feed at the end of the part there is no edge of a word.
      have hbefore : place'.before = (lines ++ rest).getLast? := by
        have htotal := hat.rest
        rw [hrest, eq_comm, List.drop_eq_nil_iff] at htotal
        rw [hat.before, List.take_of_length_le htotal]
      unfold Place.satisfies Anchor.holds at hedge
      rw [hbefore, hrest] at hedge
      cases hlast : (lines ++ rest).getLast? with
      | none =>
        rw [hlast] at hedge
        cases hedge
      | some c =>
        rw [hlast, hclose c hlast] at hedge
        exact absurd hedge (by decide +kernel)
    · rw [hcut.wordEdge_eq (Or.inr hword)]
      exact hedge

/-- Where a word begins or ends in the text before the lines end, one does in the part; and at
the end of the lines too, if the text ends there. -/
theorem wordEdge_of_text (h : Part text before lines rest after) {place place' : Place}
    (hcut : Place.WordCut before.length after place place') (hat : place'.At (lines ++ rest))
    (hfits : place.offset < before.length + lines.length ∨
      place.offset = before.length + lines.length ∧ before.length + lines.length = text.length)
    (hedge : place.satisfies .wordEdge = true) : place'.satisfies .wordEdge = true := by
  have hbehind : place'.rest ≠ [] ∨ ∀ c ∈ after.head?, isWordChar c = false := by
    rcases hfits with hlt | ⟨-, hend⟩
    · left
      have hoffset := hcut.offset
      apply List.ne_nil_of_length_pos
      rw [hat.rest, List.length_drop, List.length_append]
      omega
    · right
      have hlength := h.length_text
      have hafter : after = [] := by
        apply List.length_eq_zero_iff.mp
        omega
      rw [hafter]
      intro c hc
      cases hc
  rw [← hcut.wordEdge_eq hbehind]
  exact hedge

/-- Keywords agree wherever they end before the lines do, or where the text ends. -/
theorem keywordEnds (h : Part text before lines rest after) (keywords : List Text) :
    KeywordEnds text before lines rest keywords fun stop =>
      stop < before.length + lines.length ∨
        stop = before.length + lines.length ∧ before.length + lines.length = text.length := by
  have hle : ∀ stop, (stop < before.length + lines.length ∨
      stop = before.length + lines.length ∧ before.length + lines.length = text.length) →
        stop ≤ before.length + lines.length := by
    intro stop hfits
    omega
  refine ⟨hle, fun stop hlt => Or.inl hlt, ?_⟩
  intro k hk
  have hcut := (h.lineCut hk).toWordCut
  have hbegin : (Place.at_ (lines ++ rest) k).rest ≠ [] := by
    apply List.ne_nil_of_length_pos
    unfold Place.at_
    dsimp only
    rw [List.length_drop, List.length_append]
    omega
  obtain ⟨hnone, hsome⟩ := Ways.exists_head_filter
    (Node.follows_word before.length after (Node.leaves_literals keywords) _ _ hcut)
    fun _ _ hmem hcut hedge => h.wordEdge_of_part hcut (at_of_mem_ways hk hmem) hedge
  have hedge := hcut.wordEdge_eq (Or.inl hbegin)
  unfold Node.AgreesAt
  rw [Node.ways_anyKeyword, Node.ways_anyKeyword, hedge]
  by_cases hholds : (Place.at_ (lines ++ rest) k).satisfies .wordEdge = true
  · rw [if_pos hholds, if_pos hholds]
    refine ⟨hnone, ?_⟩
    intro next hhead hfits
    obtain ⟨hmem, hnext⟩ := List.mem_filter.mp (List.mem_of_head? hhead)
    obtain ⟨next', hhead', hcut'⟩ := hsome next hhead (h.standsBefore hk hmem (hle _ hfits))
      fun _ hmem' hcut' => h.wordEdge_of_text hcut' (at_of_mem_ways hk hmem') hfits hnext
    exact ⟨next', hhead', hcut'.offset⟩
  · rw [if_neg hholds, if_neg hholds]
    refine ⟨fun _ => rfl, ?_⟩
    intro next hhead
    cases hhead

/-- The trees of the table prefer the same ways on the lines. -/
theorem agreesAt_forKind (h : Part text before lines rest after) (hk : k < lines.length)
    {keywords : List Text} (hends : KeywordEnds text before lines rest keywords fits)
    (kind : TokenKind) :
    (Node.forKind keywords kind).AgreesAt before.length fits (Place.at_ text (before.length + k))
      (Place.at_ (lines ++ rest) k) := by
  cases kind with
  | character =>
    have hleaves : Node.character.leaves (fun _ => true) (fun _ => false) = true := by
      decide +kernel
    exact h.agreesAt_of_cut hk hends.le hleaves
  | number =>
    have hleaves : Node.number.leaves (fun own => !own.has '\n') (· == .wordEdge) = true := by
      decide +kernel
    exact h.agreesAt_of_line hk hends.le hleaves
  | keyword => exact hends.agrees k hk
  | typeName =>
    have hleaves : Node.typeName.leaves (fun own => !own.has '\n') (· == .wordEdge) = true := by
      decide +kernel
    exact h.agreesAt_of_line hk hends.le hleaves
  | string =>
    have hleaves : Node.string.leaves (fun _ => true) (fun _ => false) = true := by
      decide +kernel
    exact h.agreesAt_of_cut hk hends.le hleaves
  | comment =>
    apply Node.agreesAt_choice
    intro node hmem
    simp only [List.mem_cons, List.not_mem_nil, or_false] at hmem
    rcases hmem with rfl | rfl | rfl
    · exact h.agreesAt_of_cut hk hends.le (by decide +kernel)
    · exact h.agreesAt_openComment hk hends.le
    · exact h.agreesAt_of_cut hk hends.le (by decide +kernel)

end Part

end ScratchEditor

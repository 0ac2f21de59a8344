import Mathlib.Algebra.Order.BigOperators.Group.List
import Mathlib.Algebra.Order.Group.Nat
import ScratchEditor.Proofs.Pattern.Size
import ScratchEditor.Proofs.Token.Combined
import ScratchEditor.Proofs.Token.Engines

/-!
# The groups of the combined pattern

A match of the combined pattern is one of the first slot whose tree matches.  Its group captures
all of the match, and no group with a smaller number takes part.  So patterns that are read and
matched as trees are those of a leftmost-first engine.

Main results:

- `Combined.matchAt?_eq`: the match of the combined pattern, from the first slot that matches.
- `Combined.joins`: one more slot is one more alternative.
- `Classifier.exists_parse_of_mem`: categories that are looked for can be compiled alone.
-/

namespace ScratchEditor

/-! ## Matching a choice of groups -/

theorem Node.ways_choice (nodes : List Node) (place : Place) :
    (Node.choice nodes).ways place = nodes.flatMap fun node => node.ways place := by
  induction nodes with
  | nil => rfl
  | cons node rest ih =>
    have hways : (Node.choice (node :: rest)).ways place =
        node.ways place ++ (Node.choice rest).ways place := rfl
    rw [hways, ih, List.flatMap_cons]

theorem Node.hasGroup_choice {nodes : List Node} {index : Nat} {node : Node} (hmem : node ∈ nodes)
    (h : node.hasGroup index = true) : (Node.choice nodes).hasGroup index = true := by
  induction nodes with
  | nil => cases hmem
  | cons first rest ih =>
    have heq : (Node.choice (first :: rest)).hasGroup index =
        (first.hasGroup index || (Node.choice rest).hasGroup index) := rfl
    rw [heq, Bool.or_eq_true]
    rcases List.mem_cons.mp hmem with rfl | hrest
    · exact Or.inl h
    · exact Or.inr (ih hrest)

namespace Slot

/-- A match of the own tree of a slot, as its group has it. -/
def found (slot : Slot) (own : Found) : Found :=
  ⟨own.start, (own.reached.shift slot.index).capture slot.index own.start⟩

theorem extent_found (slot : Slot) (own : Found) : (slot.found own).extent = own.extent :=
  rfl

/-- The group of a slot captures all of its match. -/
theorem group?_found {slot : Slot} (hpos : 0 < slot.index) (own : Found) :
    (slot.found own).group? slot.index = some own.extent := by
  have hgroups : (slot.found own).reached.groups =
      (slot.index, own.extent) :: (own.reached.shift slot.index).groups := rfl
  rw [Found.group?, if_neg (Nat.ne_of_gt hpos), hgroups, List.find?_cons, beq_self_eq_true]
  rfl

/-- A group with a smaller number takes no part in the match of a slot. -/
theorem group?_found_of_lt {slot : Slot} {index : Nat} (hpos : 0 < index)
    (hlt : index < slot.index) (own : Found) : (slot.found own).group? index = none := by
  have hgroups : (slot.found own).reached.groups = (slot.index, own.extent) ::
      own.reached.groups.map fun group => (group.1 + slot.index, group.2) := rfl
  have hnone : (slot.found own).reached.groups.find? (·.1 == index) = none := by
    rw [List.find?_eq_none, hgroups]
    intro group hmem
    rw [beq_iff_eq]
    rcases List.mem_cons.mp hmem with rfl | hinner
    · exact Nat.ne_of_gt hlt
    · obtain ⟨inner, -, rfl⟩ := List.mem_map.mp hinner
      exact Nat.ne_of_gt (Nat.lt_of_lt_of_le hlt (Nat.le_add_left _ _))
  rw [Found.group?, if_neg (Nat.ne_of_gt hpos), hnone]
  rfl

/-- Where the group of a slot leads: as its own tree, with all of it captured. -/
theorem ways_tree (slot : Slot) (text : Text) (offset : Nat) :
    slot.tree.ways (Place.at_ text offset) =
      (slot.node.ways (Place.at_ text offset)).map fun reached =>
        (reached.shift slot.index).capture slot.index offset := by
  have hways : slot.tree.ways (Place.at_ text offset) =
      (((slot.node.shift slot.index).ways (Place.at_ text offset)).map fun next =>
        next.capture slot.index offset).flatMap fun place => [place] := rfl
  have hshift : (slot.node.shift slot.index).ways (Place.at_ text offset) =
      (slot.node.ways (Place.at_ text offset)).map (Place.shift slot.index) :=
    slot.node.ways_shift slot.index (Place.at_ text offset)
  rw [hways, hshift, List.flatMap_singleton', List.map_map]
  rfl

theorem states_tree (slot : Slot) : slot.tree.states = 2 + slot.node.states := by
  rw [tree, Node.states_seq, Node.states_group, Node.states_shift]
  rfl

end Slot

namespace Combined

variable {slots : List Slot} {reader : PatternReader}

/-- The tree of the combined pattern is the choice of the trees of the slots. -/
theorem finish_eq (h : Combined slots reader) (hne : slots ≠ []) :
    reader.level.finish = Node.choice (slots.map Slot.tree) := by
  have hlevel := congrArg List.reverse (h.level_cons hne)
  rw [List.reverse_cons, List.reverse_reverse] at hlevel
  unfold PatternLevel.finish
  rw [hlevel]

/-- The group of a slot is found by its name. -/
theorem indexOf?_eq (h : Combined slots reader) {i : Nat} {slot : Slot}
    (hslot : slots[i]? = some slot) :
    (Pattern.ofReader reader).indexOf? (groupName i) = some slot.index := by
  have hmem : slot ∈ slots := List.mem_of_getElem? hslot
  obtain ⟨later, earlier, hnames, hearlier⟩ := h.named i slot hslot
  have hgroup : reader.level.finish.hasGroup slot.index = true := by
    rw [h.finish_eq (List.ne_nil_of_mem hmem)]
    have htree : slot.tree.hasGroup slot.index = true := by
      have heq : slot.tree.hasGroup slot.index =
          ((slot.index == slot.index || (slot.node.shift slot.index).hasGroup slot.index) ||
            false) := rfl
      rw [heq, beq_self_eq_true]
      rfl
    exact Node.hasGroup_choice (List.mem_map_of_mem hmem) htree
  have hnone : (earlier.reverse.filter fun name =>
      reader.level.finish.hasGroup name.2).find? (·.1 == groupName i) = none := by
    rw [List.find?_eq_none]
    intro other hother
    rw [beq_iff_eq]
    exact hearlier other (List.mem_reverse.mp (List.mem_filter.mp hother).1)
  have hlist : (Pattern.ofReader reader).names =
      reader.names.reverse.filter fun name => reader.level.finish.hasGroup name.2 := rfl
  unfold Pattern.indexOf?
  rw [hlist, hnames, List.reverse_append, List.reverse_cons, List.append_assoc,
    List.filter_append, List.find?_append, hnone, List.singleton_append, List.filter_cons,
    if_pos hgroup, List.find?_cons, beq_self_eq_true]
  rfl

/-- What the group of a slot captured is found by its name. -/
theorem captured?_eq (h : Combined slots reader) {i : Nat} {slot : Slot}
    (hslot : slots[i]? = some slot) (found : Found) :
    Engine.captured? (Pattern.ofReader reader) found (groupName i) = found.group? slot.index := by
  have hindex : Engine.indexOf? (Pattern.ofReader reader) (groupName i) = some slot.index :=
    h.indexOf?_eq hslot
  rw [Engine.captured?, hindex]
  rfl

/-- The match of the combined pattern at an offset, from the first slot that matches there. -/
theorem matchAt?_eq (h : Combined slots reader) (hne : slots ≠ []) (text : Text) (offset : Nat) :
    (Pattern.ofReader reader).node.matchAt? (Place.at_ text offset) =
      slots.findSome? fun slot =>
        (slot.node.matchAt? (Place.at_ text offset)).map slot.found := by
  have hnode : (Pattern.ofReader reader).node = Node.choice (slots.map Slot.tree) :=
    h.finish_eq hne
  have hforget : (Place.at_ text offset).forget = Place.at_ text offset := rfl
  rw [hnode, Node.matchAt?_eq, hforget, Node.ways_choice, List.flatMap_map, List.head?_flatMap,
    List.map_findSome?]
  congr 1
  funext slot
  rw [Function.comp_apply, slot.ways_tree, Node.matchAt?_eq, hforget, List.head?_map,
    Option.map_map, Option.map_map]
  rfl

/-- The tree of a slot is not larger than that of the combined pattern. -/
theorem states_le (h : Combined slots reader) {slot : Slot} (hmem : slot ∈ slots) :
    slot.node.states ≤ (Pattern.ofReader reader).node.states := by
  have hnode : (Pattern.ofReader reader).node = Node.choice (slots.map Slot.tree) :=
    h.finish_eq (List.ne_nil_of_mem hmem)
  have hpart : 1 + slot.tree.states ∈
      (slots.map Slot.tree).map fun node => 1 + node.states :=
    List.mem_map_of_mem (List.mem_map_of_mem hmem)
  have hle := List.le_sum_of_mem hpart
  rw [hnode, Node.states_choice]
  rw [slot.states_tree] at hle
  omega

/-- One more slot is one more alternative. -/
theorem joins {reader' : PatternReader} {next : Slot} (h : Combined slots reader)
    (h' : Combined (slots ++ [next]) reader') {own : Pattern} (hown : own.node = next.node) :
    Engine.Joins slots.length (if slots = [] then none else some (Pattern.ofReader reader)) own
      (Pattern.ofReader reader') := by
  have hlast : (slots ++ [next])[slots.length]? = some next := by simp
  have hpos : 0 < next.index := h'.index_pos next (by simp)
  have hmatch (text : Text) (offset : Nat) :
      Engine.matchAt? (Pattern.ofReader reader') (Place.at_ text offset) =
        (slots.findSome? fun slot =>
          (slot.node.matchAt? (Place.at_ text offset)).map slot.found).or
            ((next.node.matchAt? (Place.at_ text offset)).map next.found) := by
    refine (h'.matchAt?_eq (by simp) text offset).trans ?_
    rw [List.findSome?_append]
    congr 1
    rw [List.findSome?_cons, List.findSome?_nil]
    cases (next.node.matchAt? (Place.at_ text offset)).map next.found <;> rfl
  constructor
  case groups =>
    intro i hi
    have hget : i < (slots ++ [next]).length := by simpa using hi
    have hslot := List.getElem?_eq_getElem hget
    exact ⟨_, h'.indexOf?_eq hslot, Nat.ne_of_gt (h'.index_pos _ (List.getElem_mem hget))⟩
  case first =>
    intro pattern hpattern text offset _ found hfound
    by_cases hne : slots = []
    · rw [if_pos hne] at hpattern
      cases hpattern
    · rw [if_neg hne] at hpattern
      obtain rfl := Option.some.inj hpattern
      have hearlier := (h.matchAt?_eq hne text offset).symm.trans hfound
      refine ⟨found, ?_, rfl, fun i hi => ?_⟩
      · rw [hmatch, hearlier]
        rfl
      · -- The groups before keep their numbers.
        have hslot := List.getElem?_eq_getElem hi
        have hslot' : (slots ++ [next])[i]? = some slots[i] := by
          rw [List.getElem?_append_left hi, hslot]
        rw [h.captured?_eq hslot, h'.captured?_eq hslot']
  case last =>
    intro text offset _ hnone
    have hearlier : (slots.findSome? fun slot =>
        (slot.node.matchAt? (Place.at_ text offset)).map slot.found) = none := by
      by_cases hne : slots = []
      · rw [hne]
        rfl
      · rw [if_neg hne] at hnone
        exact (h.matchAt?_eq hne text offset).symm.trans (hnone _ rfl)
    have hjoined : Engine.matchAt? (Pattern.ofReader reader') (Place.at_ text offset) =
        (own.node.matchAt? (Place.at_ text offset)).map next.found := by
      rw [hmatch, hearlier, Option.none_or, hown]
    rw [hjoined]
    constructor
    · rw [Option.map_map]
      rfl
    · intro found hfound
      obtain ⟨inner, -, rfl⟩ := Option.map_eq_some_iff.mp hfound
      refine ⟨?_, fun i hi => ?_⟩
      · rw [h'.captured?_eq hlast, Slot.group?_found hpos, Slot.extent_found]
      · have hslot' : (slots ++ [next])[i]? = some slots[i] := by
          rw [List.getElem?_append_left hi, List.getElem?_eq_getElem hi]
        have hmem : slots[i] ∈ slots := List.getElem_mem hi
        have hlt : (slots[i]).index < next.index :=
          (List.pairwise_append.mp h'.sorted).2.2 _ hmem next List.mem_cons_self
        rw [h'.captured?_eq hslot', Slot.group?_found_of_lt (h.index_pos _ hmem) hlt]

end Combined

/-! ## Patterns as an engine -/

/-- Categories that were accepted one after the other come from slots. -/
theorem Engine.Accepted.exists_slotted {categories : List Category} {combined : Option Pattern}
    (h : Engine.Accepted categories combined) : ∃ slots, Slotted categories combined slots := by
  induction h with
  | nil => exact ⟨[], slotted_nil⟩
  | concat hbefore hown hjoined ih =>
    obtain ⟨slots, hslotted⟩ := ih
    obtain ⟨slot, hnext⟩ := hslotted.concat (Pattern.parse_eq_ok_iff.mp hown).1
      (Pattern.parse_eq_ok_iff.mp hjoined).1
    exact ⟨slots ++ [slot], hnext⟩

/-- Patterns that are matched as trees are those of a leftmost-first engine. -/
instance : Engine.LeftmostFirst Pattern where
  joins {categories earlier category own joined} h hown hjoined := by
    obtain ⟨slots, reader, hcombined, rfl, rfl⟩ := h.exists_slotted
    obtain ⟨last, hreads, hfinal, hopened, rfl⟩ :=
      Pattern.read_eq_ok_iff.mp (Pattern.parse_eq_ok_iff.mp hown).1
    obtain ⟨hnext, rfl⟩ :=
      hcombined.add ⟨hreads, hfinal, hopened⟩ (Pattern.parse_eq_ok_iff.mp hjoined).1
    rw [List.length_map]
    exact hcombined.joins hnext rfl

/-! ## Categories that can be read -/

namespace Classifier

variable {categories : List Category} (baseStyle : Style)

/-- There is room for the combined pattern of every classifier. -/
theorem hasRoom_ofCategories :
    ∀ pattern ∈ (ofCategories categories baseStyle).pattern, pattern.hasRoom = true := by
  refine ofCategories_induction categories baseStyle
    (fun classifier => ∀ pattern ∈ classifier.pattern, pattern.hasRoom = true)
    (fun _ h => (nomatch h)) ?_
  rintro classifier category joined - - hjoined pattern ⟨⟩
  exact (Pattern.parse_eq_ok_iff.mp hjoined).2

variable (hread : ∀ category ∈ categories, ∃ own, Pattern.read category.pattern = .ok own)

include hread

/-- A classifier of categories whose patterns can be read alone comes from slots. -/
theorem exists_slotted_ofCategories :
    ∃ slots, Slotted (ofCategories categories baseStyle).categories
      (ofCategories categories baseStyle).pattern slots := by
  refine ofCategories_induction categories baseStyle
    (fun classifier => ∃ slots, Slotted classifier.categories classifier.pattern slots)
    ⟨[], slotted_nil⟩ ?_
  rintro classifier category joined hmem ⟨slots, hslotted⟩ hjoined
  obtain ⟨own, hown⟩ := hread category ((sublist_categories categories baseStyle).subset hmem)
  obtain ⟨slot, hnext⟩ := hslotted.concat hown (Pattern.parse_eq_ok_iff.mp hjoined).1
  exact ⟨slots ++ [slot], hnext⟩

/-- Of categories whose patterns can be read, those that are looked for have room alone. -/
theorem exists_parse_of_mem : ∀ category ∈ (ofCategories categories baseStyle).categories,
    ∃ own, Pattern.parse category.pattern = .ok own := by
  obtain ⟨slots, reader, hcombined, hcategories, hpattern⟩ :=
    exists_slotted_ofCategories baseStyle hread
  have hroom := @hasRoom_ofCategories categories baseStyle
  rw [hcategories]
  intro category hmem
  obtain ⟨slot, hslot, rfl⟩ := List.mem_map.mp hmem
  obtain ⟨own, halone, hnode⟩ := hcombined.alone slot hslot
  rw [hpattern, if_neg (List.ne_nil_of_mem hslot)] at hroom
  have hle := hcombined.states_le hslot
  rw [hnode] at hle
  refine ⟨Pattern.ofReader own, Pattern.parse_eq_ok_iff.mpr ⟨?_, ?_⟩⟩
  · exact Pattern.read_eq_ok_iff.mpr ⟨own, halone.reads, halone.final, halone.opened, rfl⟩
  · exact Pattern.hasRoom_of_le hle (hroom _ rfl)

end Classifier

end ScratchEditor

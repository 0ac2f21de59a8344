import Mathlib.Data.List.Basic
import ScratchEditor.Proofs.Pattern.Inside
import ScratchEditor.Proofs.Pattern.Ways

/-!
# Where the ways of matching lead

A way of matching moves forward in one text, and the groups captured on it lie between
its ends.  Nothing reads the captured groups, so shifting their numbers in a tree only
shifts them in the places it reaches.

Main definitions:

- `Place.At` and `Place.at_`: the places of a text.
- `Place.Forward`: a place further on in the same text, with groups captured between.

Main results:

- `Node.forward_of_mem_ways`: every way leads forward.
- `Node.ways_shift`: the ways of a tree with shifted groups.
-/

namespace ScratchEditor

/-! ## What holds of all ways -/

namespace Ways

variable {body : Place → List Place} {related : Place → Place → Prop}

/-- A way that is no longer than others. -/
theorem mem_prefer {greedy : Bool} {again stop : List Place} {place : Place} :
    place ∈ prefer greedy again stop ↔ place ∈ again ∨ place ∈ stop := by
  unfold prefer
  cases greedy with
  | true => rw [if_pos rfl, List.mem_append]
  | false => rw [if_neg Bool.false_ne_true, List.mem_append, Or.comm]

section

variable (hrefl : ∀ place, related place place)
  (htrans : ∀ a b c, related a b → related b c → related a c)
  (hbody : ∀ place, ∀ next ∈ body place, related place next)

include hrefl htrans hbody

theorem related_exactly (rounds : Nat) :
    ∀ place, ∀ next ∈ exactly body rounds place, related place next := by
  induction rounds with
  | zero =>
    intro place next hmem
    rw [List.mem_singleton.mp hmem]
    exact hrefl place
  | succ rounds ih =>
    intro place next hmem
    obtain ⟨middle, hmiddle, hnext⟩ := List.mem_flatMap.mp hmem
    exact htrans place middle next (hbody place middle hmiddle) (ih middle next hnext)

theorem related_atMost (greedy : Bool) (rounds : Nat) :
    ∀ place, ∀ next ∈ atMost body greedy rounds place, related place next := by
  induction rounds with
  | zero =>
    intro place next hmem
    rw [List.mem_singleton.mp hmem]
    exact hrefl place
  | succ rounds ih =>
    intro place next hmem
    rcases mem_prefer.mp hmem with hagain | hstop
    · obtain ⟨middle, hmiddle, hnext⟩ := List.mem_flatMap.mp hagain
      exact htrans place middle next (hbody place middle hmiddle) (ih middle next hnext)
    · rw [List.mem_singleton.mp hstop]
      exact hrefl place

theorem related_further (greedy : Bool) (fuel : Nat) :
    ∀ place, ∀ next ∈ further body greedy fuel place, related place next := by
  induction fuel with
  | zero =>
    intro place next hmem
    rw [List.mem_singleton.mp hmem]
    exact hrefl place
  | succ fuel ih =>
    intro place next hmem
    rcases mem_prefer.mp hmem with hagain | hstop
    · obtain ⟨middle, hmiddle, hnext⟩ := List.mem_flatMap.mp hagain
      by_cases hstays : middle.offset = place.offset
      · rw [if_pos hstays] at hnext
        cases hnext
      · rw [if_neg hstays] at hnext
        exact htrans place middle next (hbody place middle hmiddle) (ih middle next hnext)
    · rw [List.mem_singleton.mp hstop]
      exact hrefl place

theorem related_atLeastOnce (greedy : Bool) :
    ∀ place, ∀ next ∈ atLeastOnce body greedy place, related place next := by
  intro place next hmem
  obtain ⟨middle, hmiddle, hnext⟩ := List.mem_flatMap.mp hmem
  have hfirst := hbody place middle hmiddle
  by_cases hstays : middle.offset = place.offset
  · rw [if_pos hstays] at hnext
    rw [List.mem_singleton.mp hnext]
    exact hfirst
  · rw [if_neg hstays] at hnext
    exact htrans place middle next hfirst
      (related_further hrefl htrans hbody greedy _ middle next hnext)

/-- What relates every round to the next place relates all rounds together. -/
theorem related_rounds (least : Nat) (most : Option Nat) (greedy : Bool) :
    ∀ place, ∀ next ∈ rounds body least most greedy place, related place next := by
  intro place next hmem
  unfold rounds at hmem
  cases most with
  | some most =>
    obtain ⟨middle, hmiddle, hnext⟩ := List.mem_flatMap.mp hmem
    exact htrans place middle next (related_exactly hrefl htrans hbody least place middle hmiddle)
      (related_atMost hrefl htrans hbody greedy _ middle next hnext)
  | none =>
    cases least with
    | zero =>
      rcases mem_prefer.mp hmem with hagain | hstop
      · exact related_atLeastOnce hrefl htrans hbody greedy place next hagain
      · rw [List.mem_singleton.mp hstop]
        exact hrefl place
    | succ least =>
      obtain ⟨middle, hmiddle, hnext⟩ := List.mem_flatMap.mp hmem
      exact htrans place middle next
        (related_exactly hrefl htrans hbody least place middle hmiddle)
        (related_atLeastOnce hrefl htrans hbody greedy middle next hnext)

end

end Ways

/-! ## Places of a text -/

namespace Place

/-- A place stands in a text, whatever groups it has captured. -/
structure At (text : Text) (place : Place) : Prop where
  offset_le : place.offset ≤ text.length
  rest : place.rest = text.drop place.offset
  before : place.before = (text.take place.offset).getLast?

/-- The place of a text behind so many characters, with no group captured. -/
def at_ (text : Text) (offset : Nat) : Place :=
  ⟨(text.take offset).getLast?, text.drop offset, offset, []⟩

theorem at_start (text : Text) : Place.start text = at_ text 0 :=
  rfl

theorem at_at {text : Text} {offset : Nat} (h : offset ≤ text.length) : (at_ text offset).At text :=
  ⟨h, rfl, rfl⟩

/-- Without its groups a place of a text is known by its offset. -/
theorem At.forget_eq {text : Text} {place : Place} (h : place.At text) :
    place.forget = at_ text place.offset := by
  unfold forget at_
  rw [← h.rest, ← h.before]

/-- A character is taken if it follows and belongs to the set. -/
theorem take?_eq_some {place next : Place} {set : CharSet} :
    place.take? set = some next ↔ ∃ c rest, place.rest = c :: rest ∧ set.has c = true ∧
      next = ⟨some c, rest, place.offset + 1, place.groups⟩ := by
  unfold take?
  cases hrest : place.rest with
  | nil => simp
  | cons c rest =>
    dsimp only
    by_cases hhas : set.has c = true
    · rw [if_pos hhas]
      constructor
      · intro h
        exact ⟨c, rest, rfl, hhas, (Option.some.inj h).symm⟩
      · rintro ⟨c', rest', heq, -, rfl⟩
        obtain ⟨rfl, rfl⟩ := List.cons.inj heq
        rfl
    · rw [if_neg hhas]
      constructor
      · intro h
        cases h
      · rintro ⟨c', rest', heq, hhas', -⟩
        obtain ⟨rfl, rfl⟩ := List.cons.inj heq
        exact absurd hhas' hhas

/-- Taking a character moves to the next place of the text. -/
theorem At.take {text : Text} {place next : Place} (h : place.At text) {set : CharSet}
    (htake : place.take? set = some next) :
    next.At text ∧ next.offset = place.offset + 1 ∧ next.groups = place.groups := by
  obtain ⟨c, rest, hrest, -, rfl⟩ := take?_eq_some.mp htake
  have hdrop := h.rest
  rw [hrest] at hdrop
  have hlt : place.offset < text.length := by
    have hlength := congrArg List.length hdrop
    rw [List.length_cons, List.length_drop] at hlength
    omega
  rw [List.drop_eq_getElem_cons hlt] at hdrop
  obtain ⟨hc, hrest'⟩ := List.cons.inj hdrop
  refine ⟨⟨hlt, hrest', ?_⟩, rfl, rfl⟩
  dsimp only
  rw [List.take_succ_eq_append_getElem hlt, List.getLast?_concat, hc]

/-- Where no character follows, the text ends. -/
theorem At.offset_of_take {text : Text} {place : Place} (h : place.At text)
    (htake : place.take? (.complement .nothing) = none) : place.offset = text.length := by
  unfold take? at htake
  cases hrest : place.rest with
  | nil =>
    have hdrop := h.rest
    rw [hrest] at hdrop
    have hle := List.drop_eq_nil_iff.mp hdrop.symm
    exact Nat.le_antisymm h.offset_le hle
  | cons c rest =>
    rw [hrest] at htake
    have hhas : (CharSet.complement .nothing).has c = true := rfl
    dsimp only at htake
    rw [if_pos hhas] at htake
    cases htake

/-- A place further on in the same text, with groups that were captured in between. -/
structure Forward (place next : Place) : Prop where
  at_ : ∀ text, place.At text → next.At text
  offset_le : place.offset ≤ next.offset
  total : next.offset + next.rest.length = place.offset + place.rest.length
  groups : ∀ group ∈ next.groups, group ∈ place.groups ∨
    (place.offset ≤ group.2.start ∧ group.2.stop ≤ next.offset)

theorem Forward.refl (place : Place) : Forward place place :=
  ⟨fun _ h => h, Nat.le_refl _, rfl, fun _ h => Or.inl h⟩

theorem Forward.trans (a b c : Place) (hab : Forward a b) (hbc : Forward b c) : Forward a c where
  at_ := fun text h => hbc.at_ text (hab.at_ text h)
  offset_le := Nat.le_trans hab.offset_le hbc.offset_le
  total := hbc.total.trans hab.total
  groups := by
    intro group hmem
    have hle := hab.offset_le
    have hle' := hbc.offset_le
    rcases hbc.groups group hmem with hold | ⟨hstart, hstop⟩
    · rcases hab.groups group hold with hold | ⟨hstart, hstop⟩
      · exact Or.inl hold
      · exact Or.inr ⟨hstart, Nat.le_trans hstop hle'⟩
    · exact Or.inr ⟨Nat.le_trans hle hstart, hstop⟩

end Place

/-- Every way leads forward in the text. -/
theorem Node.forward_of_mem_ways (node : Node) :
    ∀ place, ∀ next ∈ node.ways place, Place.Forward place next := by
  induction node with
  | never =>
    intro place next hmem
    cases hmem
  | empty =>
    intro place next hmem
    rw [List.mem_singleton.mp hmem]
    exact Place.Forward.refl place
  | char set =>
    intro place next hmem
    have htake : place.take? set = some next := Option.mem_toList.mp hmem
    obtain ⟨c, rest, hrest, -, rfl⟩ := Place.take?_eq_some.mp htake
    refine ⟨fun text h => (h.take htake).1, Nat.le_succ _, ?_, fun group hgroup => Or.inl hgroup⟩
    rw [hrest, List.length_cons]
    dsimp only
    omega
  | anchor condition =>
    intro place next hmem
    have hways : (anchor condition).ways place =
        if place.satisfies condition then [place] else [] := rfl
    rw [hways] at hmem
    split at hmem
    · rw [List.mem_singleton.mp hmem]
      exact Place.Forward.refl place
    · cases hmem
  | seq first second ihFirst ihSecond =>
    intro place next hmem
    obtain ⟨middle, hmiddle, hnext⟩ := List.mem_flatMap.mp hmem
    exact Place.Forward.trans place middle next (ihFirst place middle hmiddle)
      (ihSecond middle next hnext)
  | either first second ihFirst ihSecond =>
    intro place next hmem
    rcases List.mem_append.mp hmem with hfirst | hsecond
    · exact ihFirst place next hfirst
    · exact ihSecond place next hsecond
  | group index body ih =>
    intro place next hmem
    obtain ⟨inner, hinner, rfl⟩ := List.mem_map.mp hmem
    have hforward := ih place inner hinner
    refine ⟨?_, hforward.offset_le, hforward.total, ?_⟩
    · intro text h
      have hat := hforward.at_ text h
      exact ⟨hat.offset_le, hat.rest, hat.before⟩
    · intro group hgroup
      rcases List.mem_cons.mp hgroup with rfl | hold
      · right
        refine ⟨Nat.le_refl _, ?_⟩
        dsimp only
        rw [Extent.stop_between hforward.offset_le]
        exact Nat.le_refl _
      · exact hforward.groups group hold
  | times body least most greedy ih =>
    exact Ways.related_rounds Place.Forward.refl Place.Forward.trans ih least most greedy

/-! ## Shifted groups -/

namespace Ways

variable {body body' : Place → List Place} {change : Place → Place}

/-- A change of places that leaves alone what is read of them commutes with ways of matching. -/
def Commutes (change : Place → Place) (ways ways' : Place → List Place) : Prop :=
  ∀ place, ways' (change place) = (ways place).map change

theorem map_prefer (greedy : Bool) (again stop : List Place) :
    (prefer greedy again stop).map change = prefer greedy (again.map change) (stop.map change) := by
  unfold prefer
  cases greedy <;> simp

section

variable (hoffset : ∀ place, (change place).offset = place.offset)
  (hrest : ∀ place, (change place).rest = place.rest) (hbody : Commutes change body body')

include hbody

theorem commutes_exactly (rounds : Nat) :
    Commutes change (exactly body rounds) (exactly body' rounds) := by
  induction rounds with
  | zero => exact fun _ => rfl
  | succ rounds ih =>
    intro place
    rw [exactly, exactly]
    dsimp only
    rw [hbody place, List.flatMap_map, List.map_flatMap]
    exact List.flatMap_congr fun next _ => ih next

theorem commutes_atMost (greedy : Bool) (rounds : Nat) :
    Commutes change (atMost body greedy rounds) (atMost body' greedy rounds) := by
  induction rounds with
  | zero => exact fun _ => rfl
  | succ rounds ih =>
    intro place
    rw [atMost, atMost]
    dsimp only
    rw [map_prefer, hbody place, List.flatMap_map, List.map_flatMap]
    congr 1
    exact List.flatMap_congr fun next _ => ih next

include hoffset

theorem commutes_further (greedy : Bool) (fuel : Nat) :
    Commutes change (further body greedy fuel) (further body' greedy fuel) := by
  induction fuel with
  | zero => exact fun _ => rfl
  | succ fuel ih =>
    intro place
    rw [further, further]
    dsimp only
    rw [map_prefer, hbody place, List.flatMap_map, List.map_flatMap]
    congr 1
    refine List.flatMap_congr fun next _ => ?_
    rw [hoffset, hoffset]
    by_cases hstays : next.offset = place.offset
    · rw [if_pos hstays, if_pos hstays]
      rfl
    · rw [if_neg hstays, if_neg hstays]
      exact ih next

include hrest

theorem commutes_atLeastOnce (greedy : Bool) :
    Commutes change (atLeastOnce body greedy) (atLeastOnce body' greedy) := by
  intro place
  unfold atLeastOnce
  rw [hbody place, List.flatMap_map, List.map_flatMap]
  refine List.flatMap_congr fun next _ => ?_
  rw [hoffset, hoffset, hrest]
  by_cases hstays : next.offset = place.offset
  · rw [if_pos hstays, if_pos hstays]
    rfl
  · rw [if_neg hstays, if_neg hstays]
    exact commutes_further hoffset hbody greedy _ next

theorem commutes_rounds (least : Nat) (most : Option Nat) (greedy : Bool) :
    Commutes change (rounds body least most greedy) (rounds body' least most greedy) := by
  intro place
  unfold rounds
  cases most with
  | some most =>
    dsimp only
    rw [commutes_exactly hbody least place, List.flatMap_map, List.map_flatMap]
    exact List.flatMap_congr fun next _ => commutes_atMost hbody greedy _ next
  | none =>
    cases least with
    | zero =>
      dsimp only
      rw [map_prefer, commutes_atLeastOnce hoffset hrest hbody greedy place]
      rfl
    | succ least =>
      dsimp only
      rw [commutes_exactly hbody least place, List.flatMap_map, List.map_flatMap]
      exact List.flatMap_congr fun next _ =>
        commutes_atLeastOnce hoffset hrest hbody greedy next

end

end Ways

/-- The place with the numbers of its groups shifted. -/
def Place.shift (n : Nat) (place : Place) : Place :=
  { place with groups := place.groups.map fun group => (group.1 + n, group.2) }

/-- Shifting the groups of a tree shifts the groups of the places it reaches. -/
theorem Node.ways_shift (n : Nat) (node : Node) :
    Ways.Commutes (Place.shift n) node.ways (node.shift n).ways := by
  induction node with
  | never => exact fun _ => rfl
  | empty => exact fun _ => rfl
  | char set =>
    intro place
    have htake : (place.shift n).take? set = (place.take? set).map (Place.shift n) := by
      have hrest : (place.shift n).rest = place.rest := rfl
      unfold Place.take?
      rw [hrest]
      cases place.rest with
      | nil => rfl
      | cons c rest =>
        dsimp only
        split <;> rfl
    have hways : (shift n (char set)).ways (place.shift n) =
        ((place.shift n).take? set).toList := rfl
    rw [hways, htake]
    unfold ways
    cases place.take? set with
    | none => rfl
    | some next => rfl
  | anchor condition =>
    intro place
    have hways : (shift n (anchor condition)).ways (place.shift n) =
        if place.satisfies condition then [place.shift n] else [] := rfl
    rw [hways]
    unfold ways
    by_cases h : place.satisfies condition = true
    · rw [if_pos h, if_pos h]
      rfl
    · rw [if_neg h, if_neg h]
      rfl
  | seq first second ihFirst ihSecond =>
    intro place
    have hways : (shift n (seq first second)).ways (place.shift n) =
        ((first.shift n).ways (place.shift n)).flatMap (second.shift n).ways := rfl
    have hways' : (seq first second).ways place = (first.ways place).flatMap second.ways := rfl
    rw [hways, hways', ihFirst place, List.flatMap_map, List.map_flatMap]
    exact List.flatMap_congr fun next _ => ihSecond next
  | either first second ihFirst ihSecond =>
    intro place
    have hways : (shift n (either first second)).ways (place.shift n) =
        (first.shift n).ways (place.shift n) ++ (second.shift n).ways (place.shift n) := rfl
    rw [hways, ihFirst place, ihSecond place, ← List.map_append]
    rfl
  | group index body ih =>
    intro place
    have hways : (shift n (group index body)).ways (place.shift n) =
        ((body.shift n).ways (place.shift n)).map fun next =>
          next.capture (index + n) place.offset := rfl
    have hways' : (group index body).ways place =
        (body.ways place).map fun next => next.capture index place.offset := rfl
    rw [hways, hways', ih place, List.map_map, List.map_map]
    rfl
  | times body least most greedy ih =>
    exact @Ways.commutes_rounds _ _ (Place.shift n) (fun _ => rfl) (fun _ => rfl) ih least most
      greedy

end ScratchEditor

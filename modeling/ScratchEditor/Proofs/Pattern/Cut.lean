import Mathlib.Data.List.Forall2
import ScratchEditor.Proofs.Pattern.Reach

/-!
# Matching in a text that is cut off

A part of a text may be matched as a text of its own: what stands before the part and
what follows it is cut off.  A tree without conditions that look across the cuts then
takes the same ways, except for those that lead behind the part.

Main definitions:

- `Place.Cut`: the same place before and after cutting.
- `Ways.Follows`: ways before the cut behind a part are the ways in the part.
- `Node.leaves`: a test of all sets and conditions in a tree without groups.

Main results:

- `Node.follows_of_leaves`: ways of a tree follow if those of its leaves do.
- `Node.follows_cut`: a tree without conditions follows any cut.
- `Node.follows_word`: and one that is cut between words.
- `Node.follows_line`: a tree that stays on a line follows cuts at ends of lines.
-/

namespace ScratchEditor

namespace Place

/-- Where a place stands after cutting `distance` characters before and the text `more` behind. -/
structure Cut (distance : Nat) (more : Text) (place place' : Place) : Prop where
  offset : place.offset = place'.offset + distance
  rest : place.rest = place'.rest ++ more

/-- Whether a place stands before so many characters at the end, or farther from it. -/
def standsBefore (more : Text) (place : Place) : Bool :=
  more.length ≤ place.rest.length

theorem Cut.standsBefore {distance : Nat} {more : Text} {place place' : Place}
    (h : Cut distance more place place') : place.standsBefore more = true := by
  unfold Place.standsBefore
  rw [h.rest, List.length_append, decide_eq_true_eq]
  exact Nat.le_add_left _ _

/-- What stands behind the cut leads nowhere before it. -/
theorem Forward.standsBefore {more : Text} {place next : Place} (h : Forward place next)
    (hnext : next.standsBefore more = true) : place.standsBefore more = true := by
  unfold Place.standsBefore at hnext ⊢
  rw [decide_eq_true_eq] at hnext ⊢
  have htotal := h.total
  have hle := h.offset_le
  omega

end Place

/-! ## Repetition -/

namespace Ways

/-- A way of matching that only leads forward. -/
def Onward (ways : Place → List Place) : Prop :=
  ∀ place, ∀ next ∈ ways place, Place.Forward place next

/-- The ways that do not lead behind the cut are, one for one, those after cutting. -/
def Follows (related : Place → Place → Prop) (more : Text) (ways ways' : Place → List Place) :
    Prop :=
  ∀ place place', related place place' →
    List.Forall₂ related ((ways place).filter (Place.standsBefore more)) (ways' place')

variable {related : Place → Place → Prop} {more : Text}

/-- From behind the cut no way leads before it. -/
theorem Onward.filter_eq_nil {ways : Place → List Place} (h : Onward ways) {place : Place}
    (hplace : place.standsBefore more = false) :
    (ways place).filter (Place.standsBefore more) = [] := by
  rw [List.filter_eq_nil_iff]
  intro next hmem hnext
  rw [(h place next hmem).standsBefore hnext] at hplace
  cases hplace

theorem forall₂_flatMap {l l' : List Place} {f f' : Place → List Place}
    (hl : List.Forall₂ related (l.filter (Place.standsBefore more)) l')
    (hf : ∀ a ∈ l, ∀ b ∈ l', related a b →
      List.Forall₂ related ((f a).filter (Place.standsBefore more)) (f' b))
    (hout : ∀ a ∈ l, a.standsBefore more = false →
      (f a).filter (Place.standsBefore more) = []) :
    List.Forall₂ related ((l.flatMap f).filter (Place.standsBefore more)) (l'.flatMap f') := by
  induction l generalizing l' with
  | nil =>
    rw [List.filter_nil, List.forall₂_nil_left_iff] at hl
    rw [hl]
    exact List.Forall₂.nil
  | cons a l ih =>
    have hf' {l'' : List Place} (hsub : ∀ b ∈ l'', b ∈ l') : ∀ c ∈ l, ∀ b ∈ l'', related c b →
        List.Forall₂ related ((f c).filter (Place.standsBefore more)) (f' b) :=
      fun c hc b hb => hf c (List.mem_cons_of_mem a hc) b (hsub b hb)
    have hout' : ∀ c ∈ l, c.standsBefore more = false →
        (f c).filter (Place.standsBefore more) = [] :=
      fun c hc => hout c (List.mem_cons_of_mem a hc)
    rw [List.flatMap_cons, List.filter_append]
    cases hstands : a.standsBefore more with
    | true =>
      rw [List.filter_cons_of_pos hstands] at hl
      cases hl with
      | @cons _ b _ l'' hab hrest =>
        rw [List.flatMap_cons]
        exact List.rel_append (hf a List.mem_cons_self b List.mem_cons_self hab)
          (ih hrest (hf' fun c hc => List.mem_cons_of_mem b hc) hout')
    | false =>
      have hnot : ¬ a.standsBefore more = true := by
        rw [hstands]
        exact Bool.false_ne_true
      rw [List.filter_cons_of_neg hnot] at hl
      rw [hout a List.mem_cons_self hstands, List.nil_append]
      exact ih hl (hf' fun c hc => hc) hout'

theorem forall₂_prefer (greedy : Bool) {again again' stop stop' : List Place}
    (hagain : List.Forall₂ related (again.filter (Place.standsBefore more)) again')
    (hstop : List.Forall₂ related (stop.filter (Place.standsBefore more)) stop') :
    List.Forall₂ related ((prefer greedy again stop).filter (Place.standsBefore more))
      (prefer greedy again' stop') := by
  unfold prefer
  cases greedy with
  | true =>
    rw [if_pos rfl, if_pos rfl, List.filter_append]
    exact List.rel_append hagain hstop
  | false =>
    rw [if_neg Bool.false_ne_true, if_neg Bool.false_ne_true, List.filter_append]
    exact List.rel_append hstop hagain

/-- With fuel for the text that is left, further rounds are one round and further rounds. -/
theorem further_eq {body : Place → List Place} (hbody : Onward body) (greedy : Bool) {fuel : Nat}
    {place : Place} (hfuel : place.rest.length ≤ fuel) :
    further body greedy fuel place =
      prefer greedy
        ((body place).flatMap fun next =>
          if next.offset = place.offset then [] else further body greedy (fuel - 1) next)
        [place] := by
  cases fuel with
  | zero =>
    have hnone : ((body place).flatMap fun next =>
        if next.offset = place.offset then [] else further body greedy (0 - 1) next) = [] := by
      rw [List.flatMap_eq_nil_iff]
      intro next hmem
      have hforward := hbody place next hmem
      have htotal := hforward.total
      have hle := hforward.offset_le
      rw [if_pos (by omega)]
    rw [hnone]
    unfold prefer
    cases greedy <;> rfl
  | succ fuel => rfl

section

variable {distance : Nat} (hcut : ∀ a b, related a b → Place.Cut distance more a b)
  {body : Place → List Place} (hbody : Onward body) (hfollows : Follows related more body body)

include hcut

/-- Staying is a way that follows. -/
theorem follows_stay : Follows related more (fun place => [place]) fun place => [place] := by
  intro place place' h
  rw [List.filter_cons_of_pos (hcut place place' h).standsBefore]
  exact List.Forall₂.cons h List.Forall₂.nil

include hfollows

theorem follows_exactly (hbody : Onward body) (rounds : Nat) :
    Follows related more (exactly body rounds) (exactly body rounds) := by
  induction rounds with
  | zero => exact follows_stay hcut
  | succ rounds ih =>
    intro place place' h
    have honward : Onward (exactly body rounds) :=
      related_exactly Place.Forward.refl Place.Forward.trans hbody rounds
    exact forall₂_flatMap (hfollows place place' h) (fun a _ b _ hab => ih a b hab)
      fun a _ ha => honward.filter_eq_nil ha

theorem follows_atMost (hbody : Onward body) (greedy : Bool) (rounds : Nat) :
    Follows related more (atMost body greedy rounds) (atMost body greedy rounds) := by
  induction rounds with
  | zero => exact follows_stay hcut
  | succ rounds ih =>
    intro place place' h
    have honward : Onward (atMost body greedy rounds) :=
      related_atMost Place.Forward.refl Place.Forward.trans hbody greedy rounds
    refine forall₂_prefer greedy ?_ (follows_stay hcut place place' h)
    exact forall₂_flatMap (hfollows place place' h) (fun a _ b _ hab => ih a b hab)
      fun a _ ha => honward.filter_eq_nil ha

/-- Further rounds follow with whatever fuel is enough on either side. -/
theorem follows_further (hbody : Onward body) (greedy : Bool) {fuel fuel' : Nat}
    {place place' : Place} (h : related place place') (hfuel : place.rest.length ≤ fuel)
    (hfuel' : place'.rest.length ≤ fuel') :
    List.Forall₂ related
      ((further body greedy fuel place).filter (Place.standsBefore more))
      (further body greedy fuel' place') := by
  induction hlength : place.rest.length using Nat.strong_induction_on
    generalizing fuel fuel' place place' with
  | _ n ih =>
    rw [further_eq hbody greedy hfuel, further_eq hbody greedy hfuel']
    have hoffset := (hcut place place' h).offset
    refine forall₂_prefer greedy (forall₂_flatMap (hfollows place place' h) ?_ ?_)
      (follows_stay hcut place place' h)
    · intro next hnext next' hnext' hrelated
      have hforward := hbody place next hnext
      have htotal := hforward.total
      have hle := hforward.offset_le
      have hforward' := hbody place' next' hnext'
      have htotal' := hforward'.total
      have hle' := hforward'.offset_le
      have hoffset' := (hcut next next' hrelated).offset
      by_cases hstays : next.offset = place.offset
      · rw [if_pos hstays, if_pos (by omega)]
        exact List.Forall₂.nil
      · rw [if_neg hstays, if_neg (by omega)]
        exact ih next.rest.length (by omega) hrelated (by omega) (by omega) rfl
    · intro next hnext hbehind
      by_cases hstays : next.offset = place.offset
      · rw [if_pos hstays]
        rfl
      · rw [if_neg hstays]
        have honward : Onward (further body greedy (fuel - 1)) :=
          related_further Place.Forward.refl Place.Forward.trans hbody greedy (fuel - 1)
        exact honward.filter_eq_nil hbehind

theorem follows_atLeastOnce (hbody : Onward body) (greedy : Bool) :
    Follows related more (atLeastOnce body greedy) (atLeastOnce body greedy) := by
  intro place place' h
  have hoffset := (hcut place place' h).offset
  refine forall₂_flatMap (hfollows place place' h) ?_ ?_
  · intro next _ next' _ hrelated
    have hoffset' := (hcut next next' hrelated).offset
    by_cases hstays : next.offset = place.offset
    · rw [if_pos hstays, if_pos (by omega)]
      exact follows_stay hcut next next' hrelated
    · rw [if_neg hstays, if_neg (by omega)]
      exact follows_further hcut hfollows hbody greedy hrelated (Nat.le_refl _) (Nat.le_refl _)
  · intro next _ hbehind
    by_cases hstays : next.offset = place.offset
    · rw [if_pos hstays, List.filter_cons_of_neg (by rw [hbehind]; exact Bool.false_ne_true)]
      rfl
    · rw [if_neg hstays]
      have honward : Onward (further body greedy next.rest.length) :=
        related_further Place.Forward.refl Place.Forward.trans hbody greedy _
      exact honward.filter_eq_nil hbehind

/-- Rounds follow if one round does. -/
theorem follows_rounds (hbody : Onward body) (least : Nat) (most : Option Nat) (greedy : Bool) :
    Follows related more (rounds body least most greedy) (rounds body least most greedy) := by
  intro place place' h
  unfold rounds
  cases most with
  | some most =>
    have honward : Onward (atMost body greedy (most - least)) :=
      related_atMost Place.Forward.refl Place.Forward.trans hbody greedy _
    exact forall₂_flatMap (follows_exactly hcut hfollows hbody least place place' h)
      (fun a _ b _ hab => follows_atMost hcut hfollows hbody greedy _ a b hab)
      fun a _ ha => honward.filter_eq_nil ha
  | none =>
    have honward : Onward (atLeastOnce body greedy) :=
      related_atLeastOnce Place.Forward.refl Place.Forward.trans hbody greedy
    cases least with
    | zero =>
      exact forall₂_prefer greedy (follows_atLeastOnce hcut hfollows hbody greedy place place' h)
        (follows_stay hcut place place' h)
    | succ least =>
      exact forall₂_flatMap (follows_exactly hcut hfollows hbody least place place' h)
        (fun a _ b _ hab => follows_atLeastOnce hcut hfollows hbody greedy a b hab)
        fun a _ ha => honward.filter_eq_nil ha

end

end Ways

/-! ## Trees -/

/-- Whether a tree has no groups, and its sets and conditions pass tests. -/
def Node.leaves (set : CharSet → Bool) (condition : Anchor → Bool) : Node → Bool
  | .never => true
  | .empty => true
  | .char own => set own
  | .anchor own => condition own
  | .seq first second => first.leaves set condition && second.leaves set condition
  | .either first second => first.leaves set condition && second.leaves set condition
  | .group _ _ => false
  | .times body _ _ _ => body.leaves set condition

section

variable {related : Place → Place → Prop} {distance : Nat} {more : Text}
  {set : CharSet → Bool} {condition : Anchor → Bool}

@[simp]
theorem Node.leaves_sequence (nodes : List Node) :
    (sequence nodes).leaves set condition = nodes.all (leaves set condition) := by
  induction nodes with
  | nil => rfl
  | cons node nodes ih =>
    rw [List.all_cons, ← ih]
    rfl

@[simp]
theorem Node.leaves_choice (nodes : List Node) :
    (choice nodes).leaves set condition = nodes.all (leaves set condition) := by
  induction nodes with
  | nil => rfl
  | cons node nodes ih =>
    rw [List.all_cons, ← ih]
    rfl

/-- A tree follows a cut if its leaves do. -/
theorem Node.follows_of_leaves (hcut : ∀ a b, related a b → Place.Cut distance more a b)
    (hset : ∀ own, set own = true →
      Ways.Follows related more (Node.char own).ways (Node.char own).ways)
    (hcondition : ∀ own, condition own = true → ∀ a b, related a b →
      a.satisfies own = b.satisfies own)
    {node : Node} (hleaves : node.leaves set condition = true) :
    Ways.Follows related more node.ways node.ways := by
  induction node with
  | never => exact fun _ _ _ => List.Forall₂.nil
  | empty => exact Ways.follows_stay hcut
  | char own => exact hset own hleaves
  | anchor own =>
    intro place place' h
    have hways (place : Place) : (anchor own).ways place =
        if place.satisfies own then [place] else [] := rfl
    rw [hways, hways, hcondition own hleaves place place' h]
    by_cases hholds : place'.satisfies own = true
    · rw [if_pos hholds, if_pos hholds]
      exact Ways.follows_stay hcut place place' h
    · rw [if_neg hholds, if_neg hholds]
      exact List.Forall₂.nil
  | seq first second ihFirst ihSecond =>
    obtain ⟨hfirst, hsecond⟩ := Bool.and_eq_true_iff.mp hleaves
    intro place place' h
    exact Ways.forall₂_flatMap (ihFirst hfirst place place' h)
      (fun a _ b _ hab => ihSecond hsecond a b hab)
      fun a _ ha => Ways.Onward.filter_eq_nil second.forward_of_mem_ways ha
  | either first second ihFirst ihSecond =>
    obtain ⟨hfirst, hsecond⟩ := Bool.and_eq_true_iff.mp hleaves
    intro place place' h
    have hways (place : Place) : (either first second).ways place =
        first.ways place ++ second.ways place := rfl
    rw [hways, hways, List.filter_append]
    exact List.rel_append (ihFirst hfirst place place' h) (ihSecond hsecond place place' h)
  | group index body ih => cases hleaves
  | times body least most greedy ih =>
    exact Ways.follows_rounds hcut (ih hleaves) body.forward_of_mem_ways least most greedy

end

/-- A character before the cut is taken on both sides; behind the cut it leads away. -/
theorem Place.Cut.take {distance : Nat} {more : Text} {place place' : Place}
    (h : Place.Cut distance more place place') (own : CharSet) :
    ((Node.char own).ways place).filter (Place.standsBefore more) = [] ∧
        (Node.char own).ways place' = [] ∨
      ∃ c rest next next', place'.rest = c :: rest ∧ own.has c = true ∧
        ((Node.char own).ways place).filter (Place.standsBefore more) = [next] ∧
        (Node.char own).ways place' = [next'] ∧ next.before = some c ∧ next'.before = some c ∧
        next'.rest = rest ∧ Place.Cut distance more next next' := by
  have hways (place : Place) : (Node.char own).ways place = (place.take? own).toList := rfl
  rw [hways, hways]
  cases hrest : place'.rest with
  | nil =>
    left
    constructor
    · rw [List.filter_eq_nil_iff]
      intro next hmem
      obtain ⟨c, rest, hfollows, -, rfl⟩ := Place.take?_eq_some.mp (Option.mem_toList.mp hmem)
      have hlength := congrArg List.length h.rest
      rw [hrest, hfollows, List.nil_append, List.length_cons] at hlength
      unfold Place.standsBefore
      rw [decide_eq_true_eq]
      dsimp only
      omega
    · unfold Place.take?
      rw [hrest]
      rfl
  | cons c rest =>
    have hfollows : place.rest = c :: (rest ++ more) := by
      rw [h.rest, hrest]
      rfl
    cases hhas : own.has c with
    | false =>
      left
      have htake (place : Place) (rest : Text) (hplace : place.rest = c :: rest) :
          place.take? own = none := by
        unfold Place.take?
        rw [hplace]
        dsimp only
        rw [hhas, if_neg Bool.false_ne_true]
      rw [htake place _ hfollows, htake place' _ hrest]
      exact ⟨rfl, rfl⟩
    | true =>
      right
      have htake (place : Place) (rest : Text) (hplace : place.rest = c :: rest) :
          place.take? own = some ⟨some c, rest, place.offset + 1, place.groups⟩ :=
        Place.take?_eq_some.mpr ⟨c, rest, hplace, hhas, rfl⟩
      rw [htake place _ hfollows, htake place' _ hrest]
      have hnext : Place.Cut distance more ⟨some c, rest ++ more, place.offset + 1, place.groups⟩
          ⟨some c, rest, place'.offset + 1, place'.groups⟩ := by
        refine ⟨?_, rfl⟩
        have hoffset := h.offset
        dsimp only
        omega
      refine ⟨c, rest, _, _, rfl, hhas, ?_, rfl, rfl, rfl, rfl, hnext⟩
      exact List.filter_cons_of_pos hnext.standsBefore

/-- A set of characters follows any cut. -/
theorem Node.follows_char {distance : Nat} {more : Text} (own : CharSet) :
    Ways.Follows (Place.Cut distance more) more (Node.char own).ways (Node.char own).ways := by
  intro place place' h
  rcases h.take own with ⟨hnone, hnone'⟩ |
    ⟨c, rest, next, next', -, -, hnext, hnext', -, -, -, hcut⟩
  · rw [hnone, hnone']
    exact List.Forall₂.nil
  · rw [hnext, hnext']
    exact List.Forall₂.cons hcut List.Forall₂.nil

/-- A tree without conditions follows any cut. -/
theorem Node.follows_cut {node : Node} (distance : Nat) (more : Text)
    (hleaves : node.leaves (fun _ => true) (fun _ => false) = true) :
    Ways.Follows (Place.Cut distance more) more node.ways node.ways := by
  refine Node.follows_of_leaves (fun _ _ h => h) ?_ ?_ hleaves
  · exact fun own _ => Node.follows_char own
  · intro own hnone
    cases hnone

/-- If nothing is cut off behind, a tree may also ask for the end of the text. -/
theorem Node.follows_shift {node : Node} (distance : Nat)
    (hleaves : node.leaves (fun _ => true) (· == .textStop) = true) :
    Ways.Follows (Place.Cut distance []) [] node.ways node.ways := by
  refine Node.follows_of_leaves (fun _ _ h => h) ?_ ?_ hleaves
  · exact fun own _ => Node.follows_char own
  · intro own hstop a b h
    have hrest := h.rest
    rw [List.append_nil] at hrest
    rw [beq_iff_eq] at hstop
    subst hstop
    unfold Place.satisfies Anchor.holds
    rw [hrest]

/-- A cut before which words end where they end without it. -/
structure Place.WordCut (distance : Nat) (more : Text) (place place' : Place) : Prop
    extends Place.Cut distance more place place' where
  before : place.before.any isWordChar = place'.before.any isWordChar

/-- The edges of words are the same, except perhaps at the cut behind. -/
theorem Place.WordCut.wordEdge_eq {distance : Nat} {more : Text} {place place' : Place}
    (h : Place.WordCut distance more place place')
    (hbehind : place'.rest ≠ [] ∨ ∀ c ∈ more.head?, isWordChar c = false) :
    place.satisfies .wordEdge = place'.satisfies .wordEdge := by
  have hhead : place.rest.head?.any isWordChar = place'.rest.head?.any isWordChar := by
    rw [h.rest]
    cases hrest : place'.rest with
    | cons c rest => rfl
    | nil =>
      have hmore := hbehind.resolve_left (not_not_intro hrest)
      cases more with
      | nil => rfl
      | cons c more => exact hmore c rfl
  unfold Place.satisfies Anchor.holds
  dsimp only
  rw [h.before, hhead]

/-- A tree without conditions follows cuts between words. -/
theorem Node.follows_word {node : Node} (distance : Nat) (more : Text)
    (hleaves : node.leaves (fun _ => true) (fun _ => false) = true) :
    Ways.Follows (Place.WordCut distance more) more node.ways node.ways := by
  refine Node.follows_of_leaves (fun _ _ h => h.toCut) ?_ ?_ hleaves
  · intro own _ place place' h
    rcases h.toCut.take own with ⟨hnone, hnone'⟩ |
      ⟨c, rest, next, next', -, -, hnext, hnext', hbefore, hbefore', -, hcut⟩
    · rw [hnone, hnone']
      exact List.Forall₂.nil
    · rw [hnext, hnext']
      exact List.Forall₂.cons ⟨hcut, by rw [hbefore, hbefore']⟩ List.Forall₂.nil
  · intro own hnone
    cases hnone

/-- If ways follow a cut, and so do the edges of words behind them, the first ways to an edge do. -/
theorem Ways.exists_head_filter {related : Place → Place → Prop} {stands edge : Place → Bool}
    {whole part : List Place} (h : List.Forall₂ related (whole.filter stands) part)
    (hback : ∀ a, ∀ b ∈ part, related a b → edge b = true → edge a = true) :
    (whole.filter edge = [] → part.filter edge = []) ∧
      ∀ a ∈ (whole.filter edge).head?, stands a = true →
        (∀ b ∈ part, related a b → edge b = true) →
          ∃ b ∈ (part.filter edge).head?, related a b := by
  induction whole generalizing part with
  | nil =>
    obtain rfl := List.forall₂_nil_left_iff.mp h
    exact ⟨fun _ => rfl, fun a hhead => by cases hhead⟩
  | cons a whole ih =>
    by_cases hstands : stands a = true
    · rw [List.filter_cons_of_pos hstands] at h
      obtain ⟨b, part', hrelated, hrest, rfl⟩ := List.forall₂_cons_left_iff.mp h
      obtain ⟨hnone, hsome⟩ := ih hrest fun a b hmem => hback a b (List.mem_cons_of_mem _ hmem)
      by_cases hedge : edge a = true
      · rw [List.filter_cons_of_pos hedge]
        constructor
        · intro hnil
          cases hnil
        · intro first hhead _ hforth
          obtain rfl := Option.some.inj hhead
          have hedge' := hforth b List.mem_cons_self hrelated
          rw [List.filter_cons_of_pos hedge']
          exact ⟨b, rfl, hrelated⟩
      · have hedge' : ¬ edge b = true :=
          fun hpart => hedge (hback a b List.mem_cons_self hrelated hpart)
        rw [List.filter_cons_of_neg hedge, List.filter_cons_of_neg hedge']
        refine ⟨hnone, fun first hhead hstands' hforth => ?_⟩
        exact hsome first hhead hstands' fun b hmem => hforth b (List.mem_cons_of_mem _ hmem)
    · rw [List.filter_cons_of_neg hstands] at h
      obtain ⟨hnone, hsome⟩ := ih h hback
      by_cases hedge : edge a = true
      · rw [List.filter_cons_of_pos hedge]
        constructor
        · intro hnil
          cases hnil
        · intro first hhead hstands'
          obtain rfl := Option.some.inj hhead
          exact absurd hstands' hstands
      · rw [List.filter_cons_of_neg hedge]
        exact ⟨hnone, hsome⟩

/-- A cut where a word cannot be cut: before the cut behind, a line ends. -/
structure Place.LineCut (distance : Nat) (more : Text) (place place' : Place) : Prop
    extends Place.WordCut distance more place place' where
  line : '\n' ∈ place'.rest ∨ more = []

/-- A tree that stays on a line follows cuts at the ends of lines. -/
theorem Node.follows_line {node : Node} (distance : Nat) (more : Text)
    (hleaves : node.leaves (fun own => !own.has '\n') (· == .wordEdge) = true) :
    Ways.Follows (Place.LineCut distance more) more node.ways node.ways := by
  refine Node.follows_of_leaves (fun _ _ h => h.toCut) ?_ ?_ hleaves
  · intro own hline place place' h
    rcases h.toCut.take own with ⟨hnone, hnone'⟩ |
      ⟨c, rest, next, next', hrest, hhas, hnext, hnext', hbefore, hbefore', hafter, hcut⟩
    · rw [hnone, hnone']
      exact List.Forall₂.nil
    · rw [hnext, hnext']
      refine List.Forall₂.cons ⟨⟨hcut, by rw [hbefore, hbefore']⟩, ?_⟩ List.Forall₂.nil
      rw [hafter]
      refine h.line.imp_left fun hmem => ?_
      rw [hrest] at hmem
      rcases List.mem_cons.mp hmem with rfl | hlater
      · rw [hhas] at hline
        cases hline
      · exact hlater
  · intro own hedge a b h
    rw [beq_iff_eq] at hedge
    subst hedge
    apply h.toWordCut.wordEdge_eq
    rcases h.line with hmem | hnil
    · exact Or.inl (List.ne_nil_of_mem hmem)
    · right
      rw [hnil]
      intro c hnone
      cases hnone

end ScratchEditor

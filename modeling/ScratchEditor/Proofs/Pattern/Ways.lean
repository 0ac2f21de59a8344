import ScratchEditor.Pattern.Match

/-!
# The ways of matching

Matching with a continuation tries places in order of preference.  Here these places
stand in a list, so that they can be compared, mapped and filtered; matching takes the
first one that the continuation accepts.

Main definitions:

- `Node.ways`: the places a tree reaches from a place, the preferred ones first.

Main results:

- `Node.run_eq_findSome?`: matching with a continuation looks through the ways.
- `Node.matchAt?_eq`: the preferred match at a place is the first way.
-/

namespace ScratchEditor

/-! ## Repetition -/

namespace Ways

/-- One more round before stopping if `greedy`, and stopping first if not. -/
def prefer {α : Type} (greedy : Bool) (again stop : List α) : List α :=
  if greedy then again ++ stop else stop ++ again

/-- Exactly so many rounds. -/
def exactly (body : Place → List Place) : Nat → Place → List Place
  | 0 => fun place => [place]
  | rounds + 1 => fun place => (body place).flatMap (exactly body rounds)

/-- At most so many rounds. -/
def atMost (body : Place → List Place) (greedy : Bool) : Nat → Place → List Place
  | 0 => fun place => [place]
  | rounds + 1 => fun place =>
    prefer greedy ((body place).flatMap (atMost body greedy rounds)) [place]

/-- Any number of further rounds that each move forward, at most `fuel` of them. -/
def further (body : Place → List Place) (greedy : Bool) : Nat → Place → List Place
  | 0 => fun place => [place]
  | fuel + 1 => fun place =>
    prefer greedy
      ((body place).flatMap fun next =>
        if next.offset = place.offset then [] else further body greedy fuel next)
      [place]

/-- One round or more; a first round that stays in place is the only one. -/
def atLeastOnce (body : Place → List Place) (greedy : Bool) (place : Place) : List Place :=
  (body place).flatMap fun next =>
    if next.offset = place.offset then [next] else further body greedy next.rest.length next

/-- At least and at most so many rounds. -/
def rounds (body : Place → List Place) (least : Nat) (most : Option Nat) (greedy : Bool)
    (place : Place) : List Place :=
  match most with
  | some most => (exactly body least place).flatMap (atMost body greedy (most - least))
  | none =>
    match least with
    | 0 => prefer greedy (atLeastOnce body greedy place) [place]
    | least + 1 => (exactly body least place).flatMap (atLeastOnce body greedy)

end Ways

/-- The places a tree reaches from a place, the preferred ones first. -/
def Node.ways : Node → Place → List Place
  | .never => fun _ => []
  | .empty => fun place => [place]
  | .char set => fun place => (place.take? set).toList
  | .anchor condition => fun place => if place.satisfies condition then [place] else []
  | .seq first second => fun place => (first.ways place).flatMap second.ways
  | .either first second => fun place => first.ways place ++ second.ways place
  | .group index body => fun place =>
    (body.ways place).map fun next => next.capture index place.offset
  | .times body least most greedy => Ways.rounds body.ways least most greedy

/-! ## Matching looks through the ways -/

section

variable {α : Type}

/-- A way of matching with a continuation looks through a list of places. -/
def Matcher.Tries (matcher : Matcher α) (ways : Place → List Place) : Prop :=
  ∀ place accept, matcher place accept = (ways place).findSome? accept

theorem findSome?_flatMap {β γ : Type} (l : List β) (f : β → List γ) (accept : γ → Option α) :
    (l.flatMap f).findSome? accept = l.findSome? fun x => (f x).findSome? accept := by
  induction l with
  | nil => rfl
  | cons x rest ih =>
    rw [List.flatMap_cons, List.findSome?_append, ih, List.findSome?_cons]
    cases (f x).findSome? accept with
    | none => rfl
    | some y => rfl

theorem findSome?_singleton (place : Place) (accept : Place → Option α) :
    [place].findSome? accept = accept place := by
  rw [List.findSome?_cons]
  cases accept place with
  | none => rfl
  | some x => rfl

theorem findSome?_prefer (greedy : Bool) (again stop : List Place) (accept : Place → Option α) :
    (Ways.prefer greedy again stop).findSome? accept =
      Matcher.prefer greedy (fun _ => again.findSome? accept) fun _ => stop.findSome? accept := by
  unfold Ways.prefer Matcher.prefer
  cases greedy with
  | true =>
    rw [if_pos rfl, if_pos rfl, List.findSome?_append]
    cases again.findSome? accept <;> rfl
  | false =>
    rw [if_neg Bool.false_ne_true, if_neg Bool.false_ne_true, List.findSome?_append]
    cases stop.findSome? accept <;> rfl

namespace Matcher

variable {body : Matcher α} {ways : Place → List Place}

theorem Tries.exactly (hbody : body.Tries ways) (rounds : Nat) :
    (Matcher.exactly body rounds).Tries (Ways.exactly ways rounds) := by
  induction rounds with
  | zero =>
    intro place accept
    exact (findSome?_singleton place accept).symm
  | succ rounds ih =>
    intro place accept
    rw [Ways.exactly, findSome?_flatMap, Matcher.exactly]
    dsimp only
    rw [hbody]
    congr 1
    funext next
    exact ih next accept

theorem Tries.atMost (hbody : body.Tries ways) (greedy : Bool) (rounds : Nat) :
    (Matcher.atMost body greedy rounds).Tries (Ways.atMost ways greedy rounds) := by
  induction rounds with
  | zero =>
    intro place accept
    exact (findSome?_singleton place accept).symm
  | succ rounds ih =>
    intro place accept
    have hagain : (body place fun next => Matcher.atMost body greedy rounds next accept) =
        ((ways place).flatMap (Ways.atMost ways greedy rounds)).findSome? accept := by
      rw [findSome?_flatMap, hbody]
      congr 1
      funext next
      exact ih next accept
    rw [Ways.atMost, findSome?_prefer, findSome?_singleton, ← hagain, Matcher.atMost]

theorem Tries.further (hbody : body.Tries ways) (greedy : Bool) (fuel : Nat) :
    (Matcher.further body greedy fuel).Tries (Ways.further ways greedy fuel) := by
  induction fuel with
  | zero =>
    intro place accept
    exact (findSome?_singleton place accept).symm
  | succ fuel ih =>
    intro place accept
    have hagain : (body place fun next =>
        if next.offset = place.offset then none
        else Matcher.further body greedy fuel next accept) =
        ((ways place).flatMap fun next =>
          if next.offset = place.offset then []
          else Ways.further ways greedy fuel next).findSome? accept := by
      rw [findSome?_flatMap, hbody]
      congr 1
      funext next
      by_cases hstays : next.offset = place.offset
      · rw [if_pos hstays, if_pos hstays]
        rfl
      · rw [if_neg hstays, if_neg hstays]
        exact ih next accept
    rw [Ways.further, findSome?_prefer, findSome?_singleton, ← hagain, Matcher.further]

theorem Tries.atLeastOnce (hbody : body.Tries ways) (greedy : Bool) :
    (Matcher.atLeastOnce body greedy).Tries (Ways.atLeastOnce ways greedy) := by
  intro place accept
  unfold Matcher.atLeastOnce Ways.atLeastOnce
  rw [findSome?_flatMap, hbody]
  congr 1
  funext next
  by_cases hstays : next.offset = place.offset
  · rw [if_pos hstays, if_pos hstays]
    exact (findSome?_singleton next accept).symm
  · rw [if_neg hstays, if_neg hstays]
    exact hbody.further greedy _ next accept

theorem Tries.rounds (hbody : body.Tries ways) (least : Nat) (most : Option Nat) (greedy : Bool) :
    (Matcher.rounds body least most greedy).Tries (Ways.rounds ways least most greedy) := by
  intro place accept
  unfold Matcher.rounds Ways.rounds
  cases most with
  | some most =>
    dsimp only
    rw [findSome?_flatMap, hbody.exactly least]
    congr 1
    funext next
    exact hbody.atMost greedy _ next accept
  | none =>
    cases least with
    | zero =>
      dsimp only
      rw [findSome?_prefer, findSome?_singleton, hbody.atLeastOnce greedy place accept]
    | succ least =>
      dsimp only
      rw [findSome?_flatMap, hbody.exactly least]
      congr 1
      funext next
      exact hbody.atLeastOnce greedy next accept

end Matcher

/-- Matching with a continuation looks through the ways of a tree. -/
theorem Node.run_eq_findSome? (node : Node) : Matcher.Tries (α := α) node.run node.ways := by
  induction node with
  | never => exact fun _ _ => rfl
  | empty => exact fun place accept => (findSome?_singleton place accept).symm
  | char set =>
    intro place accept
    unfold Node.run Node.ways
    cases place.take? set with
    | none => rfl
    | some next => exact (findSome?_singleton next accept).symm
  | anchor condition =>
    intro place accept
    unfold Node.run Node.ways
    by_cases h : place.satisfies condition = true
    · rw [if_pos h, if_pos h]
      exact (findSome?_singleton place accept).symm
    · rw [if_neg h, if_neg h]
      rfl
  | seq first second ihFirst ihSecond =>
    intro place accept
    unfold Node.run Node.ways
    rw [findSome?_flatMap, ihFirst]
    congr 1
    funext next
    exact ihSecond next accept
  | either first second ihFirst ihSecond =>
    intro place accept
    unfold Node.run Node.ways
    rw [List.findSome?_append, ihFirst, ihSecond]
    cases (first.ways place).findSome? accept <;> rfl
  | group index body ih =>
    intro place accept
    unfold Node.run Node.ways
    rw [ih, List.findSome?_map]
    rfl
  | times body least most greedy ih => exact Matcher.Tries.rounds ih least most greedy

end

/-- The preferred match at a place is the first way from there. -/
theorem Node.matchAt?_eq (node : Node) (place : Place) :
    node.matchAt? place =
      (node.ways place.forget).head?.map fun reached => ⟨place.offset, reached⟩ := by
  unfold matchAt?
  rw [run_eq_findSome?]
  cases node.ways place.forget with
  | nil => rfl
  | cons reached rest => rfl

end ScratchEditor

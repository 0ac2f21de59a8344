import ScratchEditor.Proofs.Pattern.Cut
import ScratchEditor.Proofs.Text.Runs

/-!
# Matching rounds of characters

A repetition whose body always moves forward is one more round or no round.  If the body
takes one character of a class, the places it reaches are those behind so many characters
of the run of this class that follows, from the longest to the shortest or the other way
round.

Main definitions:

- `Place.skip`: the place so many characters further on.
- `Node.moves`: whether a tree takes at least one character.
- `Node.TakesOne`: a tree that takes one character of a class.

Main results:

- `Node.run_star`: one more round or none.
- `Node.run_rounds`: rounds of a tree that takes one character of a class.
- `Node.run_rounds_whole`: a continuation that accepts only the whole run.
-/

namespace ScratchEditor

/-! ## Places further on -/

namespace Place

/-- The place so many characters further on. -/
def skip (place : Place) (n : Nat) : Place :=
  ⟨(place.rest.take n).getLast?.or place.before, place.rest.drop n, place.offset + n, place.groups⟩

@[simp]
theorem offset_skip (place : Place) (n : Nat) : (place.skip n).offset = place.offset + n :=
  rfl

@[simp]
theorem rest_skip (place : Place) (n : Nat) : (place.skip n).rest = place.rest.drop n :=
  rfl

@[simp]
theorem groups_skip (place : Place) (n : Nat) : (place.skip n).groups = place.groups :=
  rfl

@[simp]
theorem skip_zero (place : Place) : place.skip 0 = place := by
  simp [skip]

@[simp]
theorem skip_skip (place : Place) (m n : Nat) : (place.skip m).skip n = place.skip (m + n) := by
  simp [skip, List.take_add, List.getLast?_append, Option.or_assoc, Nat.add_assoc]

/-- The places further on than one further on. -/
theorem skip_after (place : Place) (m : Nat) :
    (place.skip m).skip = fun n => place.skip (n + m) := by
  funext n
  rw [skip_skip, Nat.add_comm]

/-- Capturing a group changes nothing that is read of a place. -/
@[simp]
theorem rest_capture (place : Place) (index start : Nat) :
    (place.capture index start).rest = place.rest :=
  rfl

/-- Taking a character moves behind it. -/
theorem take?_eq (place : Place) (set : CharSet) :
    place.take? set = if place.rest.head?.any set.has then some (place.skip 1) else none := by
  unfold take? skip
  cases place.rest <;> simp

end Place

/-! ## Rounds that move forward -/

namespace Ways

/-- A way of matching that always moves forward. -/
def Moving (body : Place → List Place) : Prop :=
  ∀ place, ∀ next ∈ body place, place.offset < next.offset

variable {body : Place → List Place}

/-- Two amounts of fuel that are enough for the text that is left lead to the same rounds. -/
theorem further_fuel (hbody : Onward body) (greedy : Bool) {fuel fuel' : Nat} {place : Place}
    (hfuel : place.rest.length ≤ fuel) (hfuel' : place.rest.length ≤ fuel') :
    further body greedy fuel place = further body greedy fuel' place := by
  induction hlength : place.rest.length using Nat.strong_induction_on
    generalizing fuel fuel' place with
  | _ n ih =>
    rw [further_eq hbody greedy hfuel, further_eq hbody greedy hfuel']
    congr 1
    refine List.flatMap_congr fun next hnext => ?_
    have htotal := (hbody place next hnext).total
    have hle := (hbody place next hnext).offset_le
    by_cases hstays : next.offset = place.offset
    · rw [if_pos hstays, if_pos hstays]
    · rw [if_neg hstays, if_neg hstays]
      exact ih next.rest.length (by omega) (by omega) (by omega) rfl

/-- Rounds that move forward are further rounds with fuel for the text that is left. -/
theorem rounds_eq_further (hbody : Onward body) (hmoving : Moving body) (greedy : Bool)
    {fuel : Nat} {place : Place} (hfuel : place.rest.length ≤ fuel) :
    rounds body 0 none greedy place = further body greedy fuel place := by
  have hrounds : rounds body 0 none greedy place =
      prefer greedy (atLeastOnce body greedy place) [place] := rfl
  rw [hrounds, further_eq hbody greedy hfuel]
  unfold atLeastOnce
  congr 1
  refine List.flatMap_congr fun next hnext => ?_
  have htotal := (hbody place next hnext).total
  have hlt := hmoving place next hnext
  rw [if_neg (by omega), if_neg (by omega)]
  exact further_fuel hbody greedy (Nat.le_refl _) (by omega)

/-- Rounds that move forward are one more round or none. -/
theorem rounds_star (hbody : Onward body) (hmoving : Moving body) (greedy : Bool) (place : Place) :
    rounds body 0 none greedy place =
      prefer greedy ((body place).flatMap (rounds body 0 none greedy)) [place] := by
  rw [rounds_eq_further hbody hmoving greedy (Nat.le_refl _),
    further_eq hbody greedy (Nat.le_refl _)]
  congr 1
  refine List.flatMap_congr fun next hnext => ?_
  have htotal := (hbody place next hnext).total
  have hlt := hmoving place next hnext
  rw [if_neg (by omega)]
  exact (rounds_eq_further hbody hmoving greedy (by omega)).symm

/-- One round or more that move forward are a first round and any number of further ones. -/
theorem rounds_plus (hbody : Onward body) (hmoving : Moving body) (greedy : Bool) (place : Place) :
    rounds body 1 none greedy place = (body place).flatMap (rounds body 0 none greedy) := by
  have hrounds : rounds body 1 none greedy place = [place].flatMap (atLeastOnce body greedy) := rfl
  rw [hrounds, List.flatMap_singleton]
  unfold atLeastOnce
  refine List.flatMap_congr fun next hnext => ?_
  have hlt := hmoving place next hnext
  rw [if_neg (by omega)]
  exact (rounds_eq_further hbody hmoving greedy (Nat.le_refl _)).symm

end Ways

namespace Node

/-- Whether a tree takes at least one character. -/
def moves : Node → Bool
  | never => true
  | empty => false
  | char _ => true
  | anchor _ => false
  | seq first second => first.moves || second.moves
  | either first second => first.moves && second.moves
  | group _ body => body.moves
  | times _ _ _ _ => false

/-- A tree that takes a character moves forward. -/
theorem moving_of_moves {node : Node} (h : node.moves = true) : Ways.Moving node.ways := by
  induction node with
  | never =>
    intro place next hmem
    cases hmem
  | empty => cases h
  | char set =>
    intro place next hmem
    obtain ⟨c, rest, -, -, rfl⟩ := Place.take?_eq_some.mp (Option.mem_toList.mp hmem)
    exact Nat.lt_succ_self _
  | anchor condition => cases h
  | seq first second ihFirst ihSecond =>
    intro place next hmem
    obtain ⟨middle, hmiddle, hnext⟩ := List.mem_flatMap.mp hmem
    have hle := (first.forward_of_mem_ways place middle hmiddle).offset_le
    have hle' := (second.forward_of_mem_ways middle next hnext).offset_le
    rcases Bool.or_eq_true_iff.mp h with hfirst | hsecond
    · exact Nat.lt_of_lt_of_le (ihFirst hfirst place middle hmiddle) hle'
    · exact Nat.lt_of_le_of_lt hle (ihSecond hsecond middle next hnext)
  | either first second ihFirst ihSecond =>
    obtain ⟨hfirst, hsecond⟩ := Bool.and_eq_true_iff.mp h
    intro place next hmem
    rcases List.mem_append.mp hmem with hmem | hmem
    · exact ihFirst hfirst place next hmem
    · exact ihSecond hsecond place next hmem
  | group index body ih =>
    intro place next hmem
    obtain ⟨inner, hinner, rfl⟩ := List.mem_map.mp hmem
    exact ih h place inner hinner
  | times body least most greedy => cases h

variable {α : Type} {body : Node}

/-- Matching with a continuation takes the first way that it accepts. -/
theorem run_eq (node : Node) (place : Place) (accept : Place → Option α) :
    node.run place accept = (node.ways place).findSome? accept :=
  node.run_eq_findSome? place accept

/-- Rounds that move forward: one more round or none. -/
theorem run_star (hmoves : body.moves = true) (greedy : Bool) (place : Place)
    (accept : Place → Option α) :
    (times body 0 none greedy).run place accept =
      Matcher.prefer greedy
        (fun _ => body.run place fun next => (times body 0 none greedy).run next accept)
        fun _ => accept place := by
  have hways : (times body 0 none greedy).ways = Ways.rounds body.ways 0 none greedy := rfl
  simp only [run_eq, hways]
  rw [Ways.rounds_star body.forward_of_mem_ways (moving_of_moves hmoves), findSome?_prefer,
    findSome?_singleton, findSome?_flatMap]

/-- At least one round that moves forward: a first one, and any number of further ones. -/
theorem run_plus (hmoves : body.moves = true) (greedy : Bool) (place : Place)
    (accept : Place → Option α) :
    (times body 1 none greedy).run place accept =
      body.run place fun next => (times body 0 none greedy).run next accept := by
  have hways (least : Nat) : (times body least none greedy).ways =
      Ways.rounds body.ways least none greedy := rfl
  simp only [run_eq, hways]
  rw [Ways.rounds_plus body.forward_of_mem_ways (moving_of_moves hmoves), findSome?_flatMap]

/-- At most one round is preferred to none. -/
theorem run_optional (body : Node) (place : Place) (accept : Place → Option α) :
    (times body 0 (some 1) true).run place accept =
      (body.run place accept).orElse fun _ => accept place :=
  rfl

@[simp]
theorem run_sequence_nil (place : Place) (accept : Place → Option α) :
    (sequence []).run place accept = accept place :=
  rfl

@[simp]
theorem run_sequence_cons (node : Node) (nodes : List Node) (place : Place)
    (accept : Place → Option α) :
    (sequence (node :: nodes)).run place accept =
      node.run place fun next => (sequence nodes).run next accept :=
  rfl

@[simp]
theorem run_choice_nil (place : Place) (accept : Place → Option α) :
    (choice []).run place accept = none :=
  rfl

@[simp]
theorem run_choice_cons (node : Node) (nodes : List Node) (place : Place)
    (accept : Place → Option α) :
    (choice (node :: nodes)).run place accept =
      (node.run place accept).orElse fun _ => (choice nodes).run place accept :=
  rfl

/-- Of a family of trees the first one is taken that matches. -/
theorem run_choice_map {β : Type} (items : List β) (f : β → Node) (place : Place)
    (accept : Place → Option α) :
    (choice (items.map f)).run place accept =
      items.findSome? fun item => (f item).run place accept := by
  induction items with
  | nil => rfl
  | cons item items ih =>
    rw [List.map_cons, run_choice_cons, ih, List.findSome?_cons]
    cases (f item).run place accept <;> rfl

@[simp]
theorem run_anchor (condition : Anchor) (place : Place) (accept : Place → Option α) :
    (anchor condition).run place accept =
      if place.satisfies condition then accept place else none :=
  rfl

/-! ## Single characters -/

/-- A tree that takes one character of a class. -/
def TakesOne (body : Node) (has : Char → Bool) : Prop :=
  ∀ place, body.ways place = if place.rest.head?.any has then [place.skip 1] else []

theorem takesOne_char (set : CharSet) : (char set).TakesOne set.has := by
  intro place
  have hways : (char set).ways place = (place.take? set).toList := rfl
  rw [hways, Place.take?_eq]
  split <;> rfl

theorem TakesOne.run_eq {has : Char → Bool} (h : body.TakesOne has) (place : Place)
    (accept : Place → Option α) :
    body.run place accept = if place.rest.head?.any has then accept (place.skip 1) else none := by
  rw [Node.run_eq, h place]
  split
  · exact findSome?_singleton _ accept
  · rfl

@[simp]
theorem run_char (set : CharSet) (place : Place) (accept : Place → Option α) :
    (char set).run place accept =
      if place.rest.head?.any set.has then accept (place.skip 1) else none :=
  (takesOne_char set).run_eq place accept

/-- One character is taken if it follows. -/
theorem run_only (c : Char) (place : Place) (accept : Place → Option α) :
    (char (.only c)).run place accept =
      if place.rest.head? = some c then accept (place.skip 1) else none := by
  rw [run_char]
  cases place.rest <;> simp

/-! ## Rounds of single characters -/

/-- The order in which rounds up to a number of them are tried. -/
def order (greedy : Bool) (longest : Nat) : List Nat :=
  if greedy then (List.range (longest + 1)).reverse else List.range (longest + 1)

/-- Of a longer run all rounds behind the first character are tried, and no round. -/
theorem findSome?_order_succ (greedy : Bool) (longest : Nat) (f : Nat → Option α) :
    (order greedy (longest + 1)).findSome? f =
      Matcher.prefer greedy (fun _ => (order greedy longest).findSome? fun n => f (1 + n))
        fun _ => f 0 := by
  have hrange : List.range (longest + 1 + 1) = 0 :: (List.range (longest + 1)).map (1 + ·) := by
    rw [List.range_succ_eq_map]
    congr 1
    exact List.map_congr_left fun n _ => Nat.succ_eq_one_add n
  cases greedy with
  | true =>
    have horder : order true (longest + 1) = ((order true longest).map (1 + ·)) ++ [0] := by
      simp [order, hrange]
    rw [horder, List.findSome?_append, List.findSome?_map]
    simp [Matcher.prefer, Function.comp_def]
  | false =>
    have horder : order false (longest + 1) = 0 :: (order false longest).map (1 + ·) := by
      simp [order, hrange]
    rw [horder, List.findSome?_cons, List.findSome?_map]
    cases f 0 <;> simp [Matcher.prefer, Function.comp_def]

/--
Rounds of a tree that takes one character of a class lead behind every part of the run of
this class, in order of preference.
-/
theorem run_rounds {has : Char → Bool} (h : body.TakesOne has) (hmoves : body.moves = true)
    (greedy : Bool) (place : Place) (accept : Place → Option α) :
    (times body 0 none greedy).run place accept =
      (order greedy (place.rest.runLength has)).findSome? fun n => accept (place.skip n) := by
  induction hrest : place.rest generalizing place with
  | nil =>
    rw [run_star hmoves, h.run_eq, hrest]
    cases greedy <;> simp [Matcher.prefer, order]
  | cons c rest ih =>
    rw [run_star hmoves, h.run_eq, hrest]
    by_cases hc : has c = true
    · have hlength : Text.runLength has (c :: rest) = Text.runLength has rest + 1 :=
        Text.runLength_cons_of_pos hc
      have hlater := ih (place.skip 1) (by simp [hrest])
      simp only [Place.skip_skip] at hlater
      rw [hlength, findSome?_order_succ, ← hlater, Place.skip_zero]
      simp [hc]
    · have hlength : Text.runLength has (c :: rest) = 0 :=
        Text.runLength_cons_of_neg (Bool.not_eq_true _ ▸ hc)
      cases greedy <;> simp [Matcher.prefer, order, hlength, hc]

/-- If only the whole run leads to an end, greedy rounds take the whole run. -/
theorem run_rounds_whole {has : Char → Bool} (h : body.TakesOne has) (hmoves : body.moves = true)
    (place : Place) (accept : Place → Option α)
    (hshorter : ∀ n < place.rest.runLength has, accept (place.skip n) = none) :
    (times body 0 none true).run place accept =
      accept (place.skip (place.rest.runLength has)) := by
  have hnone : (List.range (place.rest.runLength has)).reverse.findSome?
      (fun n => accept (place.skip n)) = none := by
    simpa [List.findSome?_eq_none_iff] using hshorter
  have horder : order true (place.rest.runLength has) =
      place.rest.runLength has :: (List.range (place.rest.runLength has)).reverse := by
    simp [order, List.range_succ]
  rw [run_rounds h hmoves, horder, List.findSome?_cons, hnone]
  cases accept (place.skip (place.rest.runLength has)) <;> rfl

/-- If only the whole run leads to an end, at least one greedy round takes the whole run. -/
theorem run_rounds_whole_plus {has : Char → Bool} (h : body.TakesOne has)
    (hmoves : body.moves = true) (place : Place) (accept : Place → Option α)
    (hshorter : ∀ n < place.rest.runLength has, 0 < n → accept (place.skip n) = none) :
    (times body 1 none true).run place accept =
      if place.rest.runLength has = 0 then none
      else accept (place.skip (place.rest.runLength has)) := by
  rw [run_plus hmoves, h.run_eq]
  cases hrest : place.rest with
  | nil => simp
  | cons c rest =>
    by_cases hc : has c = true
    · have hlength : Text.runLength has (c :: rest) = 1 + Text.runLength has rest := by
        rw [Text.runLength_cons_of_pos hc, Nat.add_comm]
      have hwhole := run_rounds_whole h hmoves (place.skip 1) accept (by
        intro n hn
        rw [Place.skip_skip]
        refine hshorter (1 + n) ?_ (by omega)
        simp only [Place.rest_skip, hrest, List.drop_succ_cons, List.drop_zero] at hn
        rw [hrest, hlength]
        omega)
      simp [hc, hwhole, hlength, hrest]
    · simp [Text.runLength_cons_of_neg (Bool.not_eq_true _ ▸ hc), hc]

end Node

end ScratchEditor

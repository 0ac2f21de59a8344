import ScratchEditor.Pattern.Node

/-!
# Matching

Matching a tree at a place tries its ways in order of preference and hands each
place it reaches to a continuation, until the continuation accepts one.  The
first choice of an alternative and, for a greedy repetition, one more round are
preferred.

A repetition without an upper bound ends with a round that matches the empty
text: after the first round it is not entered again, and a later round that
would match the empty text is not taken at all.  So every further round moves
forward, and the number of characters left bounds the rounds.

Main definitions:

- `Place`: where a match stands, and the groups it has captured.
- `Node.run`: matching with a continuation.
- `Found` and `Found.all`: the matches in a text, leftmost first, each beginning
  where the one before it ends at the earliest.
- `Node.findAll`: the matches of a tree.
-/

namespace ScratchEditor

/-! ## Places -/

/-- Where a match stands in a text. -/
structure Place where
  /-- The character before the place. -/
  before : Option Char
  /-- The characters after it. -/
  rest : Text
  /-- How many characters stand before it. -/
  offset : Nat
  /-- What the capture groups matched, the latest first. -/
  groups : List (Nat × Extent)

namespace Place

/-- The beginning of a text. -/
def start (text : Text) : Place :=
  ⟨none, text, 0, []⟩

/-- The place after one character of a set, if such a character follows. -/
def take? (place : Place) (set : CharSet) : Option Place :=
  match place.rest with
  | [] => none
  | c :: rest =>
    if set.has c then some ⟨some c, rest, place.offset + 1, place.groups⟩ else none

/-- The place with a group captured from an earlier offset up to here. -/
def capture (place : Place) (index start : Nat) : Place :=
  { place with groups := (index, Extent.between start place.offset) :: place.groups }

/-- The same place without captured groups. -/
def forget (place : Place) : Place :=
  { place with groups := [] }

/-- Whether a condition holds here. -/
def satisfies (place : Place) (anchor : Anchor) : Bool :=
  anchor.holds place.before place.rest.head?

end Place

/-! ## Repetition -/

/-- A way of matching: from a place through a continuation to a result. -/
abbrev Matcher (α : Type) :=
  Place → (Place → Option α) → Option α

namespace Matcher

variable {α : Type}

/-- Tries one more round before stopping if `greedy`, and stopping first if not. -/
def prefer (greedy : Bool) (again stop : Unit → Option α) : Option α :=
  if greedy then (again ()).orElse stop else (stop ()).orElse again

/-- Exactly so many rounds. -/
def exactly (body : Matcher α) : Nat → Matcher α
  | 0 => fun place accept => accept place
  | rounds + 1 => fun place accept =>
    body place fun next => exactly body rounds next accept

/-- At most so many rounds. -/
def atMost (body : Matcher α) (greedy : Bool) : Nat → Matcher α
  | 0 => fun place accept => accept place
  | rounds + 1 => fun place accept =>
    prefer greedy
      (fun _ => body place fun next => atMost body greedy rounds next accept)
      (fun _ => accept place)

/-- Any number of further rounds that each move forward, at most `fuel` of them. -/
def further (body : Matcher α) (greedy : Bool) : Nat → Matcher α
  | 0 => fun place accept => accept place
  | fuel + 1 => fun place accept =>
    prefer greedy
      (fun _ => body place fun next =>
        if next.offset = place.offset then none else further body greedy fuel next accept)
      (fun _ => accept place)

/-- One round or more; a first round that stays in place is the only one. -/
def atLeastOnce (body : Matcher α) (greedy : Bool) : Matcher α :=
  fun place accept =>
    body place fun next =>
      if next.offset = place.offset then accept next
      else further body greedy next.rest.length next accept

/-- At least and at most so many rounds. -/
def rounds (body : Matcher α) (least : Nat) (most : Option Nat) (greedy : Bool) : Matcher α :=
  fun place accept =>
    match most with
    | some most =>
      exactly body least place fun next => atMost body greedy (most - least) next accept
    | none =>
      match least with
      | 0 =>
        prefer greedy
          (fun _ => atLeastOnce body greedy place accept)
          (fun _ => accept place)
      | least + 1 =>
        exactly body least place fun next => atLeastOnce body greedy next accept

end Matcher

/-! ## Trees -/

/-- Matches a tree from a place and hands the places it reaches to a continuation. -/
def Node.run {α : Type} : Node → Matcher α
  | .never => fun _ _ => none
  | .empty => fun place accept => accept place
  | .char set => fun place accept => (place.take? set).bind accept
  | .anchor condition => fun place accept =>
    if place.satisfies condition then accept place else none
  | .seq first second => fun place accept =>
    first.run place fun next => second.run next accept
  | .either first second => fun place accept =>
    (first.run place accept).orElse fun _ => second.run place accept
  | .group index body => fun place accept =>
    body.run place fun next => accept (next.capture index place.offset)
  | .times body least most greedy => fun place accept =>
    Matcher.rounds body.run least most greedy place accept

/-! ## Matches in a text -/

/-- A match: where it begins, and the place it reaches. -/
structure Found where
  start : Nat
  reached : Place

namespace Found

/-- The extent that was matched. -/
def extent (found : Found) : Extent :=
  Extent.between found.start found.reached.offset

/-- What a capture group matched last; group zero is the whole match. -/
def group? (found : Found) (index : Nat) : Option Extent :=
  if index = 0 then some found.extent
  else (found.reached.groups.find? (·.1 == index)).map (·.2)

/--
The matches from a place on, where `matchAt?` tells which match begins at a place.  Where a
match has just ended, `barred` says so, and an empty match there is passed over.
-/
def allFrom (matchAt? : Place → Option Found) : Nat → Place → Bool → List Found
  | 0, _, _ => []
  | fuel + 1, place, barred =>
    let skip : List Found :=
      match place.take? (.complement .nothing) with
      | none => []
      | some next => allFrom matchAt? fuel next false
    match matchAt? place with
    | none => skip
    | some found =>
      if barred && found.extent.isEmpty then skip
      else found :: allFrom matchAt? fuel found.reached true

/-- The matches in a text, one after the other. -/
def all (matchAt? : Place → Option Found) (text : Text) : List Found :=
  allFrom matchAt? (2 * text.length + 2) (Place.start text) false

end Found

namespace Node

/-- The preferred match that begins at a place. -/
def matchAt? (node : Node) (place : Place) : Option Found :=
  (node.run place.forget some).map fun reached => ⟨place.offset, reached⟩

/-- The matches of a tree in a text. -/
def findAll (node : Node) (text : Text) : List Found :=
  Found.all node.matchAt? text

end Node

end ScratchEditor

import ScratchEditor.Pattern.CharSet

/-!
# Patterns as trees

A pattern is built from sets of characters and from conditions on the place
between two characters, by sequence, ordered choice, capture groups and
repetition.

Main definitions:

- `Anchor`: a condition on a place.
- `Node`: the tree of a pattern.
- `Node.hasGroup`: whether a capture group occurs in a tree.
- `Node.states`: how large a tree is once it is compiled.
-/

namespace ScratchEditor

/-- A condition on the place between two characters. -/
inductive Anchor
  /-- The beginning of the text. -/
  | textStart
  /-- The end of the text. -/
  | textStop
  /-- The beginning of a line. -/
  | lineStart
  /-- The end of a line. -/
  | lineStop
  /-- A character of a word on exactly one side. -/
  | wordEdge
  /-- Characters of words on both sides or on neither. -/
  | notWordEdge
deriving DecidableEq

/-- Whether a place with these neighbours satisfies a condition. -/
def Anchor.holds (before after : Option Char) : Anchor → Bool
  | textStart => before.isNone
  | textStop => after.isNone
  | lineStart => before.isNone || before == some '\n'
  | lineStop => after.isNone || after == some '\n'
  | wordEdge => before.any isWordChar != after.any isWordChar
  | notWordEdge => before.any isWordChar == after.any isWordChar

/-- The tree of a pattern. -/
inductive Node
  /-- Matches nowhere. -/
  | never
  /-- Matches the empty text. -/
  | empty
  /-- Matches one character of a set. -/
  | char (set : CharSet)
  /-- Matches the empty text where a condition holds. -/
  | anchor (condition : Anchor)
  /-- Matches one after the other. -/
  | seq (first second : Node)
  /-- Matches either, and prefers the first. -/
  | either (first second : Node)
  /-- Matches its body and remembers where. -/
  | group (index : Nat) (body : Node)
  /-- Matches its body at least and at most so many times, as often as possible if `greedy`. -/
  | times (body : Node) (least : Nat) (most : Option Nat) (greedy : Bool)

namespace Node

/-- One tree after the other. -/
def sequence (nodes : List Node) : Node :=
  nodes.foldr seq empty

/-- The first tree that matches. -/
def choice (nodes : List Node) : Node :=
  nodes.foldr either never

/-- Repeats a body; repeating it no times matches the empty text and forgets its groups. -/
def repeated (body : Node) (least : Nat) (most : Option Nat) (greedy : Bool) : Node :=
  if most = some 0 then empty else times body least most greedy

/-- Whether a capture group occurs in a tree. -/
def hasGroup (index : Nat) : Node → Bool
  | never => false
  | empty => false
  | char _ => false
  | anchor _ => false
  | seq first second => first.hasGroup index || second.hasGroup index
  | either first second => first.hasGroup index || second.hasGroup index
  | group own body => own == index || body.hasGroup index
  | times body _ _ _ => body.hasGroup index

/-! ## Size -/

/-- How often a compiled repetition holds its body. -/
def copies (least : Nat) (most : Option Nat) : Nat :=
  max 1 (most.getD least)

/-- So many states and those of a tree.  They are added up from left to right, so that a long
sequence is gone through in a loop. -/
def statesFrom : Node → Nat → Nat
  | never, count => count
  | empty, count => count
  | char set, count => count + set.states
  | anchor _, count => count + 1
  | seq first second, count => second.statesFrom (first.statesFrom count)
  | either first second, count => second.statesFrom (first.statesFrom (count + 1))
  | group _ body, count => body.statesFrom (count + 2)
  | times body least most _, count => count + copies least most * body.statesFrom 0 + 1

/-- The states that a compiled tree takes, estimated from below. -/
def states (node : Node) : Nat :=
  node.statesFrom 0

end Node

end ScratchEditor

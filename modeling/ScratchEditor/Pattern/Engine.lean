import ScratchEditor.Pattern.Parser

/-!
# Engines

Whoever looks for patterns in a text needs an engine: something that compiles the text of a
pattern, knows the capture groups by their names, and tells which match begins at a place.
The classifier works with any engine.  The one that it is run with reads patterns as
`Pattern.parse` does and matches their trees.  Other engines read more, and they may end a
repetition at a round that matches nothing, where this one looks for a longer round.

Main definitions:

- `Engine`: the operations of an engine.
- `Engine.findAll`: the matches of a compiled pattern in a text.
-/

namespace ScratchEditor

/-- An engine whose compiled patterns are of some type. -/
class Engine (ρ : Type) where
  /-- The pattern that a text stands for. -/
  compile : Text → Except PatternError ρ
  /-- The index of the capture group with a name. -/
  indexOf? : ρ → Text → Option Nat
  /-- The preferred match that begins at a place. -/
  matchAt? : ρ → Place → Option Found

namespace Engine

variable {ρ : Type} [Engine ρ]

/-- The matches of a pattern in a text, one after the other. -/
def findAll (pattern : ρ) (text : Text) : List Found :=
  Found.all (matchAt? pattern) text

end Engine

/-- Patterns are read and their trees are matched, where no other engine is named. -/
@[default_instance]
instance : Engine Pattern where
  compile := Pattern.parse
  indexOf? := Pattern.indexOf?
  matchAt? pattern := pattern.node.matchAt?

end ScratchEditor

/-!
# Sets of code points

A set of code points is given by its edges: the ascending points at which
membership changes.  A code point belongs to the set when the number of edges
at or below it is odd.

Main definitions:

- `CodeSet`: the edges of a set.
- `CodeSet.has`: membership of a character.
-/

namespace ScratchEditor

/-- A set of code points, given by the ascending points at which membership changes. -/
structure CodeSet where
  edges : List Nat

namespace CodeSet

/-- Membership below the remaining edges, where `inside` says how it stands before the first. -/
def hasFrom (inside : Bool) : List Nat → Nat → Bool
  | [], _ => inside
  | edge :: rest, point => if point < edge then inside else hasFrom (!inside) rest point

/-- Whether a character belongs to the set. -/
def has (set : CodeSet) (c : Char) : Bool :=
  hasFrom false set.edges c.toNat

@[simp]
theorem has_empty (c : Char) : CodeSet.has ⟨[]⟩ c = false :=
  rfl

end CodeSet

end ScratchEditor

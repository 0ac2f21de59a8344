import ScratchEditor.Pattern.LetterCase
import ScratchEditor.Text.Blank
import ScratchEditor.Text.CharClass

/-!
# Sets of characters in patterns

A pattern matches one character by a set: spans of code points, the classes of
digits, blanks and word characters, and what the set operations make of them.

Main definitions:

- `CharSet` and `CharSet.has`.
- `CharSet.states`: what a set adds to the size of a pattern.
- `CharSet.ofClassName?`: the classes of ASCII characters that have a name.
-/

namespace ScratchEditor

/-- A set of characters. -/
inductive CharSet
  /-- No character. -/
  | nothing
  /-- The characters from one to another, both included. -/
  | span (low high : Char)
  /-- The decimal digits. -/
  | digits
  /-- The blanks. -/
  | blanks
  /-- The characters of words. -/
  | wordChars
  | union (a b : CharSet)
  | inter (a b : CharSet)
  | diff (a b : CharSet)
  /-- What belongs to exactly one of two sets. -/
  | symmDiff (a b : CharSet)
  | complement (a : CharSet)
  /-- A set with all case variants of its characters. -/
  | folded (a : CharSet)

namespace CharSet

/-- Whether a character belongs to a set. -/
def has : CharSet → Char → Bool
  | nothing, _ => false
  | span low high, c => low ≤ c && c ≤ high
  | digits, c => isDecimalDigit c
  | blanks, c => isBlank c
  | wordChars, c => isWordChar c
  | union a b, c => a.has c || b.has c
  | inter a b, c => a.has c && b.has c
  | diff a b, c => a.has c && !b.has c
  | symmDiff a b, c => a.has c != b.has c
  | complement a, c => !a.has c
  | folded a, c => (caseVariants c).any a.has

/-- The set of one character. -/
def only (c : Char) : CharSet :=
  span c c

/-- The union of some sets. -/
def unions (sets : List CharSet) : CharSet :=
  sets.foldr union nothing

/-- The set, or its complement. -/
def complementIf (negated : Bool) (set : CharSet) : CharSet :=
  if negated then complement set else set

/-- The set, with case variants if letter case does not matter. -/
def foldedIf (ignoreCase : Bool) (set : CharSet) : CharSet :=
  if ignoreCase then folded set else set

/-- The states that a compiled set takes at least: one for each byte of a single character. -/
def states : CharSet → Nat
  | span low high => if low = high then low.utf8Size else 1
  | _ => 1

/-! ## Named classes of ASCII characters -/

/-- The capital letters. -/
def upper : CharSet :=
  span 'A' 'Z'

/-- The small letters. -/
def lower : CharSet :=
  span 'a' 'z'

/-- The digits of ASCII. -/
def decimal : CharSet :=
  span '0' '9'

/-- The class a name stands for. -/
def ofClassName? (name : Text) : Option CharSet :=
  if name = "alnum".toList then some (unions [decimal, upper, lower])
  else if name = "alpha".toList then some (unions [upper, lower])
  else if name = "ascii".toList then some (span '\x00' '\x7f')
  else if name = "blank".toList then some (unions [only '\t', only ' '])
  else if name = "cntrl".toList then some (unions [span '\x00' '\x1f', only '\x7f'])
  else if name = "digit".toList then some decimal
  else if name = "graph".toList then some (span '!' '~')
  else if name = "lower".toList then some lower
  else if name = "print".toList then some (span ' ' '~')
  else if name = "punct".toList then
    some (unions [span '!' '/', span ':' '@', span '[' (Char.ofNat 96), span '{' '~'])
  else if name = "space".toList then some (unions [span '\t' '\r', only ' '])
  else if name = "upper".toList then some upper
  else if name = "word".toList then some (unions [decimal, upper, only '_', lower])
  else if name = "xdigit".toList then some (unions [decimal, span 'A' 'F', span 'a' 'f'])
  else none

@[simp]
theorem has_only (c d : Char) : (only c).has d = decide (d = c) := by
  simp only [only, has]
  by_cases h : d = c
  · simp [h]
  · have hnot : ¬ (c ≤ d ∧ d ≤ c) := fun hle => h (Char.le_antisymm hle.2 hle.1)
    simpa [h] using hnot

end CharSet

end ScratchEditor

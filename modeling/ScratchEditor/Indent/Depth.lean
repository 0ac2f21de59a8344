import ScratchEditor.Text.Basic

/-!
# Brace depth

Nesting is counted in braces that are open.  Braces in a line comment, from two
slashes to the end of the line, do not count; a closing brace with nothing open
is ignored.  Block comments and literals are not told apart from code.

Main definitions:

- `BraceScan.feed`: one character further through a text.
- `indentDepth`: the depth at the end of a text.
-/

namespace ScratchEditor

/-- What a scan knows after some characters. -/
structure BraceScan where
  /-- The braces that are open. -/
  depth : Nat
  /-- Whether a line comment is running. -/
  inComment : Bool
  /-- Whether the last character was a slash. -/
  afterSlash : Bool
deriving DecidableEq

namespace BraceScan

/-- Before the first character. -/
def start : BraceScan :=
  ⟨0, false, false⟩

/-- The scan after one more character. -/
def feed (scan : BraceScan) (c : Char) : BraceScan :=
  if c = '/' then ⟨scan.depth, scan.inComment || scan.afterSlash, true⟩
  else if c = '\n' then ⟨scan.depth, false, false⟩
  else if scan.inComment then ⟨scan.depth, true, false⟩
  else if c = '{' then ⟨scan.depth + 1, false, false⟩
  else if c = '}' then ⟨scan.depth - 1, false, false⟩
  else ⟨scan.depth, false, false⟩

/-- The scan after a whole text. -/
def feedAll (scan : BraceScan) (text : Text) : BraceScan :=
  text.foldl feed scan

@[simp]
theorem feedAll_nil (scan : BraceScan) : scan.feedAll [] = scan :=
  rfl

@[simp]
theorem feedAll_cons (scan : BraceScan) (c : Char) (text : Text) :
    scan.feedAll (c :: text) = (scan.feed c).feedAll text :=
  rfl

@[simp]
theorem feedAll_append (scan : BraceScan) (a b : Text) :
    scan.feedAll (a ++ b) = (scan.feedAll a).feedAll b := by
  simp [feedAll]

/-- No line comment and no slash survives the end of a line. -/
theorem feed_newline (scan : BraceScan) : scan.feed '\n' = ⟨scan.depth, false, false⟩ := by
  simp [feed]

end BraceScan

/-- The number of braces open at the end of a text. -/
def indentDepth (text : Text) : Nat :=
  (BraceScan.start.feedAll text).depth

@[simp]
theorem indentDepth_nil : indentDepth [] = 0 :=
  rfl

end ScratchEditor

import ScratchEditor.Indent.Depth
import ScratchEditor.Indent.Unit
import ScratchEditor.Text.Blank

/-!
# Detecting the unit of a file

Every line inside braces that is not blank votes for the unit it seems to be
indented by: a line that begins with a tab for tabs, a line that begins with
spaces for the width that its depth divides them into.  A line that opens with
a closing brace stands one level further out.

Main definitions:

- `lineVote`: the vote of one line.
- `detectIndent`: the unit with the most votes.
-/

namespace ScratchEditor

/-- The pieces of a text between its line feeds. -/
def splitAtNewlines : Text → List Text
  | [] => [[]]
  | c :: rest =>
    if c = '\n' then [] :: splitAtNewlines rest
    else
      match splitAtNewlines rest with
      | [] => [[c]]
      | line :: more => (c :: line) :: more

/-- The blanks that indent a line. -/
def isIndentChar (c : Char) : Bool :=
  c == ' ' || c == '\t'

/-- The depth a line is indented for: one less when it opens with a closing brace. -/
def lineDepth (depth : Nat) (body : Text) : Nat :=
  if body.head? = some '}' then depth - 1 else depth

/-- The unit a line votes for, given the braces open before it. -/
def lineVote (openBraces : Nat) (line : Text) : Option IndentUnit :=
  let body : Text := line.dropWhile isIndentChar
  let depth := lineDepth openBraces body
  if depth = 0 || body.isBlankOnly then none
  else
    match line with
    | '\t' :: _ => some .tab
    | ' ' :: _ =>
      let spaces := (line.takeWhile (· == ' ')).length
      let width := spaces / depth
      if spaces % depth = 0 && 1 ≤ width && width ≤ IndentUnit.widest then
        some (.spaces width)
      else none
    | _ => none

/-- The votes of consecutive lines, the first of which a scan has reached. -/
def votesFrom : BraceScan → List Text → List IndentUnit
  | _, [] => []
  | scan, line :: rest =>
    (lineVote scan.depth line).toList ++ votesFrom ((scan.feedAll line).feed '\n') rest

/-- The votes of all lines of a text. -/
def indentVotes (text : Text) : List IndentUnit :=
  votesFrom BraceScan.start (splitAtNewlines text)

/-- The better supported of two widths; of equally supported ones the one found first. -/
def betterWidth (votes : List IndentUnit) (best : Option Nat) (width : Nat) : Option Nat :=
  match best with
  | none => if 0 < votes.count (.spaces width) then some width else none
  | some other =>
    if votes.count (.spaces other) < votes.count (.spaces width) then some width else best

/-- The width with the most votes, the narrowest of those that tie. -/
def favouriteWidth (votes : List IndentUnit) : Option Nat :=
  ((List.range (IndentUnit.widest + 1)).drop 1).foldl (betterWidth votes) none

/--
The unit a text is indented by: tabs when at least as many lines vote for them
as for all widths together, otherwise the favourite width.
-/
def detectIndent (text : Text) : Option IndentUnit :=
  let votes := indentVotes text
  let tabs := votes.count .tab
  if 0 < tabs && votes.length - tabs ≤ tabs then some .tab
  else (favouriteWidth votes).map .spaces

@[simp]
theorem indentVotes_nil : indentVotes [] = [] := by
  simp [indentVotes, splitAtNewlines, votesFrom, lineVote, lineDepth, BraceScan.start]

end ScratchEditor

import ScratchEditor.Text.Basic

/-!
# Patterns of shell words

In a pattern a star stands for any text, a question mark for any character and
brackets for one of some characters.  A quoted character stands for itself, so
the characters of a word carry a mark that says whether they are quoted.

Main definitions:

- `MarkedText`: a text whose characters are marked when they are quoted.
- `Glob.ofMarked` and `Glob.fits`: the pattern of a word, and the texts that
  fit it.
-/

namespace ScratchEditor

/-- A text whose characters are marked when they are quoted. -/
abbrev MarkedText :=
  List (Char × Bool)

/-- A text with one mark for all of its characters. -/
def MarkedText.ofText (text : Text) (quoted : Bool) : MarkedText :=
  text.map (·, quoted)

/-- The characters without their marks. -/
def MarkedText.text (marked : MarkedText) : Text :=
  marked.map (·.1)

@[simp]
theorem MarkedText.text_ofText (text : Text) (quoted : Bool) :
    (MarkedText.ofText text quoted).text = text := by
  simp [MarkedText.text, MarkedText.ofText, Function.comp_def]

/-- A part of a pattern. -/
inductive GlobPart
  | exactly (c : Char)
  | anyChar
  | anyText
  /-- One of the characters in some ranges, or one outside all of them. -/
  | oneOf (negated : Bool) (ranges : List (Char × Char))
deriving DecidableEq

/-- A pattern. -/
abbrev Glob :=
  List GlobPart

namespace Glob

/-- The ranges up to a closing bracket, and what follows it. -/
def bracketRanges : Nat → MarkedText → Option (List (Char × Char) × MarkedText)
  | 0, _ => none
  | _ + 1, [] => none
  | fuel + 1, (c, quoted) :: rest =>
    if c = ']' ∧ quoted = false then some ([], rest)
    else
      match rest with
      | ('-', false) :: (high, highQuoted) :: more =>
        if high = ']' ∧ highQuoted = false then
          (bracketRanges fuel rest).map fun part => ((c, c) :: part.1, part.2)
        else (bracketRanges fuel more).map fun part => ((c, high) :: part.1, part.2)
      | _ => (bracketRanges fuel rest).map fun part => ((c, c) :: part.1, part.2)

/-- A bracket behind its opening, and what follows it; a closing one right at the beginning stands
for itself. -/
def bracket? (marked : MarkedText) : Option (GlobPart × MarkedText) :=
  let (negated, inside) :=
    match marked with
    | ('!', false) :: rest => (true, rest)
    | ('^', false) :: rest => (true, rest)
    | _ => (false, marked)
  let inside : MarkedText :=
    match inside with
    | (']', false) :: rest => (']', true) :: rest
    | _ => inside
  (bracketRanges (inside.length + 1) inside).map fun part => (.oneOf negated part.1, part.2)

/-- The pattern that a marked text stands for, part by part. -/
def partsFrom : Nat → MarkedText → Glob
  | 0, _ => []
  | _ + 1, [] => []
  | fuel + 1, (c, quoted) :: rest =>
    if quoted then .exactly c :: partsFrom fuel rest
    else if c = '*' then .anyText :: partsFrom fuel rest
    else if c = '?' then .anyChar :: partsFrom fuel rest
    else if c = '[' then
      match bracket? rest with
      | some (part, rest) => part :: partsFrom fuel rest
      | none => .exactly c :: partsFrom fuel rest
    else .exactly c :: partsFrom fuel rest

/-- The pattern that a marked text stands for. -/
def ofMarked (marked : MarkedText) : Glob :=
  partsFrom marked.length marked

/-- Whether a part other than a star stands for a character. -/
def partFits (c : Char) : GlobPart → Bool
  | .exactly d => c == d
  | .anyChar => true
  | .anyText => false
  | .oneOf negated ranges =>
    (ranges.any fun range => range.1 ≤ c && c ≤ range.2) != negated

/-- Whether a text fits a pattern. -/
def fits : Glob → Text → Bool
  | [], text => text.isEmpty
  | .anyText :: more, [] => fits more []
  | .anyText :: more, c :: rest => fits more (c :: rest) || fits (.anyText :: more) rest
  | _ :: _, [] => false
  | part :: more, c :: rest => partFits c part && fits more rest
termination_by glob text => glob.length + text.length

/-- Whether a pattern stands for anything but one text. -/
def isOpen (glob : Glob) : Bool :=
  glob.any fun part =>
    match part with
    | .exactly _ => false
    | _ => true

end Glob

end ScratchEditor

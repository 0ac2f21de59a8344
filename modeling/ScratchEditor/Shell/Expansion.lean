import ScratchEditor.Shell.Glob
import ScratchEditor.Shell.State

/-!
# Expansion of shell words

Before a command runs, its words are replaced by their values.  An unquoted value
is split into fields at separators, and a field that is a pattern is replaced by
the names of the files that fit it.

Main definitions:

- `Fields`: the fields found so far.
- `Shell.expandFields`, `Shell.expandText` and `Shell.expandGlob`: the fields, the text and the
  pattern of a word.
-/

namespace ScratchEditor

/-- The fields of a word found so far, the latest first, and the one that may still grow. -/
structure Fields where
  separators : Text
  closed : List MarkedText
  growing : Option MarkedText

namespace Fields

/-- No fields yet. -/
def empty (separators : Text) : Fields :=
  ⟨separators, [], none⟩

/-- Adds to the field that grows. -/
def add (fields : Fields) (marked : MarkedText) : Fields :=
  { fields with growing := some (fields.growing.getD [] ++ marked) }

/-- Ends the field that grows, if there is one. -/
def close (fields : Fields) : Fields :=
  match fields.growing with
  | some marked => { fields with closed := marked :: fields.closed, growing := none }
  | none => fields

/-- Whether a separator only counts once however often it is repeated. -/
def isSoft (c : Char) : Bool :=
  c == ' ' || c == '\t' || c == '\n'

/-- Adds a value that is split at separators. -/
def split (fields : Fields) (value : Text) : Fields :=
  value.foldl
    (fun fields c =>
      if fields.separators.contains c then
        if isSoft c then fields.close else (fields.add []).close
      else fields.add [(c, false)])
    fields

/-- Adds values that begin fields of their own, the first one apart. -/
def addEach (fields : Fields) : List Text → Fields
  | [] => fields
  | value :: rest =>
    rest.foldl (fun fields value => fields.close.add (.ofText value true))
      (fields.add (.ofText value true))

/-- All fields in order. -/
def toList (fields : Fields) : List MarkedText :=
  fields.close.closed.reverse

@[simp]
theorem toList_empty (separators : Text) : (empty separators).toList = [] :=
  rfl

end Fields

/-- Runs a script for the text that it prints. -/
abbrev Substitution :=
  Text → Shell → Text × Shell

namespace Shell

/-- The separators unless a script sets others. -/
def standardSeparators : Text :=
  [' ', '\t', '\n']

/-- The separators at which values are split. -/
def separators (shell : Shell) : Text :=
  (shell.bindings.value? "IFS".toList).getD standardSeparators

/-- The texts with a blank between them. -/
def joined (texts : List Text) : Text :=
  [' '].intercalate texts

/-- Texts without the line ends behind them. -/
def withoutLineEnds (text : Text) : Text :=
  (text.reverse.dropWhile (· == '\n')).reverse

/-- Adds a value that may be quoted. -/
def addValue (fields : Fields) (value : Text) (quoted : Bool) : Fields :=
  if quoted then fields.add (.ofText value true) else fields.split value

/-- The text of some fields. -/
def fieldsText (fields : Fields) : Text :=
  joined (fields.toList.map MarkedText.text)

/-! ## Sums -/

/-- What is wrong with an expression. -/
def arithmeticComplaint (expression : Text) : Text :=
  let why :=
    if (Arithmetic.parse? expression).isSome then "division by zero" else "expecting primary"
  "arithmetic expression: ".toList ++ why.toList ++ ": \"".toList ++ expression ++ ['"']

/-- The value of a sum. -/
def sumValue (shell : Shell) (expression : Text) : Text × Shell :=
  match (Arithmetic.parse? expression).bind (Arithmetic.value? shell.bindings) with
  | some (value, bindings) => (decimalInt value, { shell with bindings := bindings })
  | none => ([], shell.abort 2 (arithmeticComplaint expression))

/-! ## Parameters -/

/-- Some beginning of a text that fits a pattern is dropped: the shortest, or the longest. -/
def dropFitting (glob : Glob) (longest : Bool) (text : Text) : Text :=
  let lengths := List.range (text.length + 1)
  let lengths := if longest then lengths.reverse else lengths
  match lengths.find? fun n => glob.fits (text.take n) with
  | some n => text.drop n
  | none => text

/-- Some end of a text that fits a pattern is dropped: the shortest, or the longest. -/
def dropFittingEnd (glob : Glob) (longest : Bool) (text : Text) : Text :=
  let lengths := List.range (text.length + 1)
  let lengths := if longest then lengths else lengths.reverse
  match lengths.find? fun n => glob.fits (text.drop n) with
  | some n => text.take n
  | none => text

/-- Ends the script because a parameter has no value. -/
def failUnset (shell : Shell) (name why : Text) (emptyCounts : Bool) : Shell :=
  let standard := "parameter not set" ++ if emptyCounts then " or null" else ""
  shell.abort 2 (name ++ ": ".toList ++ (if why.isEmpty then standard.toList else why))

/-- The value of a parameter, if it has one; the list of arguments always has. -/
def value? (shell : Shell) (name : Text) : Option Text :=
  if name = ['@'] ∨ name = ['*'] then
    if shell.arguments.isEmpty then none
    else some ((shell.separators.take 1).intercalate shell.arguments)
  else shell.parameter? name

/-- Adds the value of a parameter by a rule, whose text is expanded by `nested`. -/
def useParameter (nested : Word → Shell × Fields → Shell × Fields) (state : Shell × Fields)
    (name : Text) (use : ParameterUse) (quoted : Bool) : Shell × Fields :=
  let (shell, fields) := state
  let word := if quoted then Word.ofQuoted .vanishes use.text else Word.ofUnquoted use.text
  let value := shell.value? name
  let missing := if use.emptyCounts then (value.getD []).isEmpty else value.isNone
  let held := addValue fields (value.getD []) quoted
  match use.rule with
  | .fallback => if missing then nested word (shell, fields) else (shell, held)
  | .instead => if missing then (shell, fields) else nested word (shell, fields)
  | .assign =>
    if missing then
      let (shell, inside) := nested word (shell, .empty [])
      let text := fieldsText inside
      (shell.assign name text, addValue fields text quoted)
    else (shell, held)
  | .demand =>
    if missing then
      let (shell, inside) := nested word (shell, .empty [])
      (shell.failUnset name (fieldsText inside) use.emptyCounts, fields)
    else (shell, held)
  | .dropStart longest =>
    let (shell, inside) := nested (Word.ofUnquoted use.text) (shell, .empty [])
    let glob := Glob.ofMarked inside.toList.flatten
    (shell, addValue fields (dropFitting glob longest (value.getD [])) quoted)
  | .dropEnd longest =>
    let (shell, inside) := nested (Word.ofUnquoted use.text) (shell, .empty [])
    let glob := Glob.ofMarked inside.toList.flatten
    (shell, addValue fields (dropFittingEnd glob longest (value.getD [])) quoted)

/-- Adds the value of a piece; words inside it are expanded by `nested`. -/
def expandPiece (run : Substitution) (nested : Word → Shell × Fields → Shell × Fields)
    (state : Shell × Fields) (piece : Piece) : Shell × Fields :=
  let (shell, fields) := state
  if !shell.isOn then state
  else
    match piece with
    | .plain text quoted => (shell, fields.add (.ofText text quoted))
    | .size name =>
      (shell, addValue fields (decimal (FileTree.nameBytes ((shell.value? name).getD []))) true)
    | .sum expression =>
      let (shell, inside) := nested (Word.ofQuoted .stays expression) (shell, .empty [])
      let (value, shell) := shell.sumValue (fieldsText inside)
      (shell, fields.add (.ofText value true))
    | .command script quoted =>
      let (text, shell) := run script shell
      (shell, addValue fields (withoutLineEnds text) quoted)
    | .nonsense => (shell.abort 2 "Bad substitution".toList, fields)
    | .parameter name (some use) quoted => useParameter nested (shell, fields) name use quoted
    | .parameter name none quoted =>
      if name = ['@'] ∧ quoted then (shell, fields.addEach shell.arguments)
      else
        match shell.value? name with
        | some value => (shell, addValue fields value quoted)
        | none =>
          if shell.stopsOnUnset ∧ name ≠ ['@'] ∧ name ≠ ['*'] then
            (shell.failUnset name [] false, fields)
          else (shell, addValue fields [] quoted)

/-- Adds the value of a word whose references are nested at most to a depth. -/
def expandInto (run : Substitution) : Nat → Word → Shell × Fields → Shell × Fields
  | 0, _, state => state
  | depth + 1, word, state => word.foldl (expandPiece run (expandInto run depth)) state

/-- How deep references may be nested. -/
def referenceDepth : Nat :=
  64

/-! ## Names of files -/

/-- Whether a name comes before another one, or is the same, in the order of code points. -/
def standsBefore : Text → Text → Bool
  | [], _ => true
  | _ :: _, [] => false
  | a :: restA, b :: restB => if a = b then standsBefore restA restB else a.toNat < b.toNat

/-- The names in a directory, in order. -/
def namesIn (files : FileTree) (directory : TreePath) : List Text :=
  let found := files.entries.filterMap fun entry =>
    if entry.1.dropLast = directory then entry.1.getLast? else none
  found.mergeSort standsBefore

/-- The names of files that fit a field, or the field itself. -/
def fileNames (shell : Shell) (marked : MarkedText) : List Text :=
  let glob := Glob.ofMarked marked
  if glob.isOpen then
    let fitting := (namesIn shell.files shell.working).filter fun name =>
      (name.head? != some '.' || marked.text.head? == some '.') && glob.fits name
    if fitting.isEmpty then [marked.text] else fitting
  else [marked.text]

/-! ## Words -/

/-- The fields of words. -/
def expandFields (run : Substitution) (shell : Shell) (words : List Word) : List Text × Shell :=
  words.foldl
    (fun (found, shell) word =>
      let (shell, fields) := expandInto run referenceDepth word (shell, .empty shell.separators)
      (found ++ fields.toList.flatMap shell.fileNames, shell))
    ([], shell)

/-- The text of a word, which is not split. -/
def expandText (run : Substitution) (shell : Shell) (word : Word) : Text × Shell :=
  let (shell, fields) := expandInto run referenceDepth word (shell, .empty [])
  (fieldsText fields, shell)

/-- The pattern of a word. -/
def expandGlob (run : Substitution) (shell : Shell) (word : Word) : Glob × Shell :=
  let (shell, fields) := expandInto run referenceDepth word (shell, .empty [])
  (Glob.ofMarked fields.toList.flatten, shell)

end Shell

end ScratchEditor

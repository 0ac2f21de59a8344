import ScratchEditor.Pattern.Bracket
import ScratchEditor.Pattern.Match

/-!
# Reading patterns

A pattern is read from left to right.  What has been read of the group that is
open stands in a level; opening a group puts the level aside, and closing it
takes it up again with the finished group as its last item.  Flags switched
inside a group last until it closes.

Classes by the name of a property, edges of words on one side only, and the flags for greediness,
for carriage returns and against Unicode are not read: a pattern with one of them is refused.

Main definitions:

- `PatternReader`: the state of reading, and `PatternReader.step`.
- `Pattern` and `Pattern.read`: a pattern with the names of its groups.
- `Pattern.parse`: a pattern that there is room for.
-/

namespace ScratchEditor

/-! ## Levels -/

/-- An item of a sequence; a switch of flags is one too, but cannot be repeated. -/
inductive PatternItem
  | node (node : Node)
  | switch

/-- The tree of an item. -/
def PatternItem.toNode : PatternItem → Node
  | node n => n
  | switch => .empty

/-- What has been read of a group. -/
structure PatternLevel where
  /-- The alternatives before the current one, the latest first. -/
  alternatives : List Node
  /-- The items of the current alternative, the latest first. -/
  items : List PatternItem

namespace PatternLevel

/-- A group of which nothing has been read. -/
def empty : PatternLevel :=
  ⟨[], []⟩

/-- The level with one more item. -/
def push (level : PatternLevel) (item : PatternItem) : PatternLevel :=
  { level with items := item :: level.items }

/-- The tree of the current alternative. -/
def current (level : PatternLevel) : Node :=
  Node.sequence (level.items.reverse.map PatternItem.toNode)

/-- The level after a bar: the current alternative is finished. -/
def nextAlternative (level : PatternLevel) : PatternLevel :=
  ⟨level.current :: level.alternatives, []⟩

/-- The tree of the whole group. -/
def finish (level : PatternLevel) : Node :=
  Node.choice (level.alternatives.reverse ++ [level.current])

end PatternLevel

/-- A group that is open: its index if it captures, and what it interrupted. -/
structure OpenGroup where
  index : Option Nat
  flags : Flags
  level : PatternLevel

/-- The state of reading a pattern. -/
structure PatternReader where
  rest : Text
  flags : Flags
  level : PatternLevel
  /-- The groups that are open, the innermost first. -/
  opened : List OpenGroup
  /-- How many capture groups have been opened. -/
  groupCount : Nat
  /-- The names of capture groups, the latest first. -/
  names : List (Text × Nat)

namespace PatternReader

/-- Before the first character. -/
def start (text : Text) : PatternReader :=
  ⟨text, .none, .empty, [], 0, []⟩

/-- The reader with a tree as the next item. -/
def push (reader : PatternReader) (node : Node) (rest : Text) : PatternReader :=
  { reader with level := reader.level.push (.node node), rest := rest }

/-! ## Atoms -/

/-- The tree of an atom under some flags. -/
def atomNode (flags : Flags) : Atom → Node
  | .literal c => .char ((CharSet.only c).foldedIf flags.ignoreCase)
  | .set s => .char s
  | .wordEdge negated => .anchor (if negated then .notWordEdge else .wordEdge)
  | .textEnd stop => .anchor (if stop then .textStop else .textStart)

/-- The tree of a dot. -/
def dotNode (flags : Flags) : Node :=
  .char (.complement (if flags.dotAll then .nothing else .only '\n'))

/-! ## Groups -/

/-- The characters that a group may be named with. -/
def isNameChar (first : Bool) (c : Char) : Bool :=
  c == '_' || if first then isAlphabetic c
  else c == '.' || c == '[' || c == ']' || isAlphanumeric c

/-- A name and what follows the angle bracket that closes it. -/
def readName (first : Bool) : Text → Except PatternError (Text × Text)
  | [] => .error .badName
  | c :: rest =>
    if c = '>' then if first then .error .badName else .ok ([], rest)
    else if isNameChar first c then
      (readName false rest).map fun part => (c :: part.1, part.2)
    else .error .badName

/-- The reader inside a new group. -/
def openGroup (reader : PatternReader) (index : Option Nat) (flags : Flags) (rest : Text) :
    PatternReader :=
  { reader with
    rest := rest
    flags := flags
    level := .empty
    opened := ⟨index, reader.flags, reader.level⟩ :: reader.opened
    groupCount := reader.groupCount + (if index.isSome then 1 else 0) }

/-- The reader inside a new capture group with a name. -/
def openNamed (reader : PatternReader) (text : Text) : Except PatternError PatternReader := do
  let (name, rest) ← readName true text
  if reader.names.any (·.1 == name) then throw .repeatedName
  let index := reader.groupCount + 1
  let inside := reader.openGroup (some index) reader.flags rest
  return { inside with names := (name, index) :: reader.names }

/-- The flags with one letter switched on or off. -/
def switchFlag (flags : Flags) (c : Char) (on : Bool) : Except PatternError Flags :=
  if c = 'i' then .ok { flags with ignoreCase := on }
  else if c = 'm' then .ok { flags with manyLines := on }
  else if c = 's' then .ok { flags with dotAll := on }
  else if c = 'x' then .ok { flags with spaced := on }
  else if c = 'u' && on then .ok flags
  else .error .badFlags

/--
Reads the letters of a flag group up to the colon or the closing bracket, and
says which of them it was.  `seen` holds the letters before, the latest first.
-/
def readFlags (flags : Flags) (seen : List Char) :
    Text → Except PatternError (Flags × List Char × Bool × Text)
  | [] => .error .badFlags
  | c :: rest =>
    if c = ':' ∨ c = ')' then
      if seen.head? = some '-' then .error .badFlags
      else .ok (flags, seen, c = ':', rest)
    else if seen.contains c then .error .badFlags
    else if c = '-' then readFlags flags (c :: seen) rest
    else do
      readFlags (← switchFlag flags c (!seen.contains '-')) (c :: seen) rest

/-- Reads a group that begins with a question mark and letters. -/
def readFlagGroup (reader : PatternReader) (text : Text) : Except PatternError PatternReader := do
  let (flags, seen, encloses, rest) ← readFlags reader.flags [] text
  if encloses then return reader.openGroup none flags rest
  else if seen.isEmpty then throw .nothingToRepeat
  else return { reader with rest := rest, flags := flags, level := reader.level.push .switch }

/-- Reads the opening of a group, the text beginning behind the parenthesis. -/
def readGroup (reader : PatternReader) (text : Text) : Except PatternError PatternReader :=
  let text := reader.flags.skip text
  match text with
  | '?' :: '=' :: _ => .error .lookAround
  | '?' :: '!' :: _ => .error .lookAround
  | '?' :: '<' :: '=' :: _ => .error .lookAround
  | '?' :: '<' :: '!' :: _ => .error .lookAround
  | '?' :: 'P' :: '<' :: rest => reader.openNamed rest
  | '?' :: '<' :: rest => reader.openNamed rest
  | '?' :: rest => reader.readFlagGroup rest
  | _ => .ok (reader.openGroup (some (reader.groupCount + 1)) reader.flags text)

/-- The tree of a group from its body. -/
def groupNode (index : Option Nat) (body : Node) : Node :=
  match index with
  | some index => .group index body
  | none => body

/-- Closes the innermost group. -/
def closeGroup (reader : PatternReader) (rest : Text) : Except PatternError PatternReader :=
  match reader.opened with
  | [] => .error .unopenedGroup
  | group :: outer =>
    .ok { reader with
      rest := rest
      flags := group.flags
      level := group.level.push (.node (groupNode group.index reader.level.finish))
      opened := outer }

/-! ## Repetition -/

/-- Repeats the last item. -/
def repeatLast (reader : PatternReader) (least : Nat) (most : Option Nat) (greedy : Bool)
    (rest : Text) : Except PatternError PatternReader :=
  match reader.level.items with
  | .node node :: items =>
    .ok { reader with
      rest := rest
      level := { reader.level with
        items := .node (Node.repeated node least most greedy) :: items } }
  | _ => .error .nothingToRepeat

/-- Whether a repetition is greedy, and what follows the mark that says it is not. -/
def greediness : Text → Bool × Text
  | '?' :: rest => (false, rest)
  | rest => (true, rest)

/-- The bounds of a repetition are below 2^32. -/
def boundLimit : Nat :=
  4294967296

/-- A bound of a repetition, with blanks around it. -/
def readBound (flags : Flags) (text : Text) : Except PatternError (Nat × Text) :=
  let text := text.dropWhile isBlank
  let digits := text.takeWhile Char.isDigit
  let rest := flags.skip ((text.drop digits.length).dropWhile isBlank)
  match readDigits 0 digits with
  | .ok n => if digits.isEmpty || boundLimit ≤ n then .error .badBounds else .ok (n, rest)
  | .error _ => .error .badBounds

/-- Reads the bounds of a repetition, the text beginning behind the brace. -/
def readBounds (flags : Flags) (text : Text) :
    Except PatternError (Nat × Option Nat × Text) := do
  let (least, rest) ← readBound flags (flags.skip text)
  match rest with
  | '}' :: rest => return (least, some least, flags.skip rest)
  | ',' :: rest =>
    match flags.skip rest with
    | '}' :: rest => return (least, none, flags.skip rest)
    | rest =>
      let (most, rest) ← readBound flags rest
      match rest with
      | '}' :: rest =>
        if most < least then throw .badBounds
        return (least, some most, flags.skip rest)
      | _ => throw .badBounds
  | _ => throw .badBounds

/-! ## The whole pattern -/

/-- Reads on from a character. -/
def step (reader : PatternReader) (c : Char) (rest : Text) : Except PatternError PatternReader :=
  if c = '(' then reader.readGroup rest
  else if c = ')' then reader.closeGroup rest
  else if c = '|' then .ok { reader with rest := rest, level := reader.level.nextAlternative }
  else if c = '[' then do
    let (set, rest) ← readBracket reader.flags (2 * rest.length + 2) rest
    return reader.push (.char set) rest
  else if c = '?' then
    let (greedy, rest) := greediness rest
    reader.repeatLast 0 (some 1) greedy rest
  else if c = '*' then
    let (greedy, rest) := greediness rest
    reader.repeatLast 0 none greedy rest
  else if c = '+' then
    let (greedy, rest) := greediness rest
    reader.repeatLast 1 none greedy rest
  else if c = '{' then do
    let (least, most, rest) ← readBounds reader.flags rest
    let (greedy, rest) := greediness rest
    reader.repeatLast least most greedy rest
  else if c = '\\' then do
    let (atom, rest) ← readEscape reader.flags rest
    return reader.push (atomNode reader.flags atom) rest
  else if c = '.' then .ok (reader.push (dotNode reader.flags) rest)
  else if c = '^' then
    .ok (reader.push (.anchor (if reader.flags.manyLines then .lineStart else .textStart)) rest)
  else if c = '$' then
    .ok (reader.push (.anchor (if reader.flags.manyLines then .lineStop else .textStop)) rest)
  else .ok (reader.push (atomNode reader.flags (.literal c)) rest)

/-- Reads to the end; every step takes at least one character. -/
def run : Nat → PatternReader → Except PatternError PatternReader
  | 0, reader => .ok reader
  | fuel + 1, reader =>
    match reader.flags.skip reader.rest with
    | [] => .ok reader
    | c :: rest => do run fuel (← reader.step c rest)

end PatternReader

/-- A pattern: its tree, and the names of its capture groups. -/
structure Pattern where
  node : Node
  names : List (Text × Nat)

namespace Pattern

/-- The pattern that a text stands for, however large it is. -/
def read (text : Text) : Except PatternError Pattern := do
  let reader ← PatternReader.run (text.length + 1) (PatternReader.start text)
  if reader.opened.isEmpty then
    let node := reader.level.finish
    return ⟨node, reader.names.reverse.filter fun name => node.hasGroup name.2⟩
  else throw .unclosedGroup

/-- The room in bytes that the states of a compiled pattern may take. -/
def room : Nat :=
  10485760

/-- The bytes of a state. -/
def stateSize : Nat :=
  32

/-- The states of a pattern have room. -/
def hasRoom (pattern : Pattern) : Bool :=
  pattern.node.states * stateSize ≤ room

/-- The pattern that a text stands for, if there is room for it. -/
def parse (text : Text) : Except PatternError Pattern := do
  let pattern ← read text
  if pattern.hasRoom then return pattern else throw .tooLarge

/-- The index of the capture group with a name. -/
def indexOf? (pattern : Pattern) (name : Text) : Option Nat :=
  (pattern.names.find? (·.1 == name)).map (·.2)

/-- The characters of a text, escaped so that a pattern matches exactly them. -/
def escape (text : Text) : Text :=
  text.flatMap fun c => if isMeta c then ['\\', c] else [c]

end Pattern

end ScratchEditor

import ScratchEditor.Pattern.CharSet
import ScratchEditor.Text.Decimal
import ScratchEditor.Text.Hexadecimal

/-!
# Escapes and bracketed sets

A backslash gives a character a special meaning or takes one away, and a
bracket encloses a set of characters.  Inside brackets stand characters, spans,
classes, further brackets, and the operators `&&`, `--` and `~~`, which group to
the left.

Main definitions:

- `PatternError`: why a text is no pattern.
- `Flags`: what the letters of a flag group switch.
- `Atom` and `readEscape`: what a backslash makes of the next characters.
- `readBracket`: the set that a bracket opens.
-/

namespace ScratchEditor

/-- Why a text is no pattern. -/
inductive PatternError
  /-- A group is not closed. -/
  | unclosedGroup
  /-- A group is closed that was not opened. -/
  | unopenedGroup
  /-- There is nothing before a repetition. -/
  | nothingToRepeat
  /-- The bounds of a repetition are not written as they should be, or in the wrong order. -/
  | badBounds
  /-- A bracket is not closed. -/
  | unclosedBracket
  /-- A span of characters ends before it begins, or an end of it is no character. -/
  | badSpan
  /-- A backslash before something it has no meaning for. -/
  | badEscape
  /-- A reference back to a group. -/
  | backReference
  /-- A condition on the text around a place. -/
  | lookAround
  /-- The name of a group is not closed or holds a character it must not. -/
  | badName
  /-- Two groups have the same name. -/
  | repeatedName
  /-- A flag group with an unknown, repeated or missing letter. -/
  | badFlags
  /-- The compiled pattern would take too much room. -/
  | tooLarge
deriving DecidableEq

/-- What the letters of a flag group switch. -/
structure Flags where
  /-- Letter case does not matter. -/
  ignoreCase : Bool
  /-- The conditions on ends of the text hold at ends of lines too. -/
  manyLines : Bool
  /-- A dot also matches a line feed. -/
  dotAll : Bool
  /-- Blanks and comments in the pattern do not count. -/
  spaced : Bool
deriving DecidableEq

/-- Nothing is switched on. -/
def Flags.none : Flags :=
  ⟨false, false, false, false⟩

/-- The pattern from the next character that counts, past blanks and comments. -/
def skipIgnored (inComment : Bool) : Text → Text
  | [] => []
  | c :: rest =>
    if inComment then skipIgnored (c != '\n') rest
    else if isBlank c then skipIgnored false rest
    else if c = '#' then skipIgnored true rest
    else c :: rest

/-- The pattern from the next character that counts under some flags. -/
def Flags.skip (flags : Flags) (text : Text) : Text :=
  if flags.spaced then skipIgnored false text else text

/-! ## Escapes -/

/-- What matches in one place. -/
inductive Atom
  | literal (c : Char)
  | set (set : CharSet)
  /-- An edge of a word, or any place that is none. -/
  | wordEdge (negated : Bool)
  /-- The beginning or the end of the text. -/
  | textEnd (stop : Bool)

/-- The characters that mean something in a pattern. -/
def isMeta (c : Char) : Bool :=
  "\\.+*?()|[]\x7b\x7d^$#&-~".toList.contains c

/-- The characters that a backslash makes stand for themselves. -/
def isEscapable (c : Char) : Bool :=
  isMeta c || (c.toNat < 0x80 && !c.isAlphanum && c != '<' && c != '>')

/-- The character of a code point, unless it is a surrogate or too large. -/
def charOfCode? (code : Nat) : Option Char :=
  if h : code.isValidChar then some (Char.ofNatAux code h) else none

/-- Reads so many hexadecimal digits onto the value of those before them. -/
def readHexDigits (flags : Flags) (value : Nat) : Nat → Text → Except PatternError (Nat × Text)
  | 0, text => .ok (value, text)
  | _ + 1, [] => .error .badEscape
  | count + 1, c :: rest =>
    match hexValue? c with
    | none => .error .badEscape
    | some digit => readHexDigits flags (value * 16 + digit) count (flags.skip rest)

/-- Reads hexadecimal digits up to a closing brace. -/
def readHexBraces (flags : Flags) : Nat → List Nat → Text → Except PatternError (Nat × Text)
  | 0, _, _ => .error .badEscape
  | _ + 1, _, [] => .error .badEscape
  | fuel + 1, digits, c :: rest =>
    if c = '}' then
      if digits.isEmpty then .error .badEscape
      else .ok (digits.foldl (fun value digit => value * 16 + digit) 0, flags.skip rest)
    else
      match hexValue? c with
      | none => .error .badEscape
      | some digit => readHexBraces flags fuel (digits ++ [digit]) (flags.skip rest)

/-- Reads a character given by its code point: so many digits, or any number between braces. -/
def readCodePoint (flags : Flags) (count : Nat) (text : Text) :
    Except PatternError (Atom × Text) := do
  let (code, rest) ←
    match flags.skip text with
    | '{' :: rest => readHexBraces flags (rest.length + 1) [] (flags.skip rest)
    | rest => readHexDigits flags 0 count rest
  match charOfCode? code with
  | some c => return (.literal c, rest)
  | none => throw .badEscape

/-- Reads what stands behind a backslash. -/
def readEscape (flags : Flags) : Text → Except PatternError (Atom × Text)
  | [] => .error .badEscape
  | c :: rest =>
    if c.isDigit then .error .backReference
    else if c = 'x' then readCodePoint flags 2 rest
    else if c = 'u' then readCodePoint flags 4 rest
    else if c = 'U' then readCodePoint flags 8 rest
    else if c = 'd' then .ok (.set .digits, rest)
    else if c = 'D' then .ok (.set (.complement .digits), rest)
    else if c = 's' then .ok (.set .blanks, rest)
    else if c = 'S' then .ok (.set (.complement .blanks), rest)
    else if c = 'w' then .ok (.set .wordChars, rest)
    else if c = 'W' then .ok (.set (.complement .wordChars), rest)
    else if isEscapable c then .ok (.literal c, rest)
    else if c = 'a' then .ok (.literal '\x07', rest)
    else if c = 'f' then .ok (.literal '\x0c', rest)
    else if c = 't' then .ok (.literal '\t', rest)
    else if c = 'n' then .ok (.literal '\n', rest)
    else if c = 'r' then .ok (.literal '\r', rest)
    else if c = 'v' then .ok (.literal '\x0b', rest)
    else if c = 'A' then .ok (.textEnd false, rest)
    else if c = 'z' then .ok (.textEnd true, rest)
    else if c = 'b' then .ok (.wordEdge false, rest)
    else if c = 'B' then .ok (.wordEdge true, rest)
    else .error .badEscape

/-! ## Brackets -/

/-- An operator between sets. -/
inductive SetOperator
  | inter
  | diff
  | symmDiff

/-- What an operator makes of two sets. -/
def SetOperator.apply : SetOperator → CharSet → CharSet → CharSet
  | inter, a, b => .inter a b
  | diff, a, b => .diff a b
  | symmDiff, a, b => .symmDiff a b

/-- The operator at the beginning of a text, and what follows it. -/
def setOperator? : Text → Option (SetOperator × Text)
  | '&' :: '&' :: rest => some (.inter, rest)
  | '-' :: '-' :: rest => some (.diff, rest)
  | '~' :: '~' :: rest => some (.symmDiff, rest)
  | _ => none

/-- A class by its name between `[:` and `:]`, the text beginning behind the bracket. -/
def namedClass? (flags : Flags) (text : Text) : Option (CharSet × Text) :=
  match text with
  | ':' :: rest =>
    let negated := rest.head? = some '^'
    let rest := if negated then rest.drop 1 else rest
    let name := rest.takeWhile (· != ':')
    match rest.drop name.length with
    | ':' :: ']' :: rest =>
      (CharSet.ofClassName? name).map fun set =>
        ((set.foldedIf flags.ignoreCase).complementIf negated, rest)
    | _ => none
  | _ => none

/-- One item of a bracket: an escape or a character. -/
def readSetItem (flags : Flags) : Text → Except PatternError (Atom × Text)
  | [] => .error .unclosedBracket
  | '\\' :: rest => readEscape flags rest
  | c :: rest => .ok (.literal c, rest)

/-- The set of an item that stands alone. -/
def Atom.toSet : Atom → Except PatternError CharSet
  | literal c => .ok (.only c)
  | set s => .ok s
  | _ => .error .badEscape

/-- The character of an item that ends a span. -/
def Atom.toChar : Atom → Except PatternError Char
  | literal c => .ok c
  | _ => .error .badSpan

/-- A hyphen between two items makes a span of them, unless a bracket or a hyphen follows it. -/
def opensSpan (flags : Flags) : Text → Option Text
  | '-' :: rest =>
    match flags.skip rest with
    | ']' :: _ => none
    | '-' :: _ => none
    | rest => some rest
  | _ => none

/-- An item, or a span from one item to another. -/
def readSpan (flags : Flags) (text : Text) : Except PatternError (CharSet × Text) := do
  let (first, rest) ← readSetItem flags text
  let rest := flags.skip rest
  if rest.isEmpty then throw .unclosedBracket
  match opensSpan flags rest with
  | none => return (← first.toSet, rest)
  | some rest =>
    if rest.isEmpty then throw .unclosedBracket
    let (second, rest) ← readSetItem flags rest
    let low ← first.toChar
    let high ← second.toChar
    if high < low then throw .badSpan
    return (.span low high, rest)

/-- The hyphens and the closing bracket that stand for themselves at the beginning of a set. -/
def readLeading (flags : Flags) : Nat → CharSet → Text → CharSet × Text
  | 0, set, text => (set, text)
  | fuel + 1, set, text =>
    match text with
    | '-' :: rest => readLeading flags fuel (.union set (.only '-')) (flags.skip rest)
    | _ => (set, text)

/-- What stands before an operator, if there is one, and the operator. -/
abbrev SetContext :=
  Option (CharSet × SetOperator)

/-- Puts a set into the context of the operator before it. -/
def applyContext (flags : Flags) (context : SetContext) (set : CharSet) : CharSet :=
  match context with
  | none => set
  | some (before, operator) =>
    operator.apply (before.foldedIf flags.ignoreCase) (set.foldedIf flags.ignoreCase)

mutual

/-- The set that a bracket opens, the text beginning behind the bracket. -/
def readBracket (flags : Flags) : Nat → Text → Except PatternError (CharSet × Text)
  | 0, _ => .error .unclosedBracket
  | fuel + 1, text => do
    let text := flags.skip text
    let negated := text.head? = some '^'
    let text := if negated then flags.skip (text.drop 1) else text
    let (leading, text) := readLeading flags text.length .nothing text
    let (leading, text) :=
      match leading, text with
      | .nothing, ']' :: rest => (CharSet.only ']', flags.skip rest)
      | _, _ => (leading, text)
    let (set, rest) ← readItems flags fuel none leading text
    return ((set.foldedIf flags.ignoreCase).complementIf negated, rest)

/-- The items of a bracket up to its end, with the set collected so far. -/
def readItems (flags : Flags) :
    Nat → SetContext → CharSet → Text → Except PatternError (CharSet × Text)
  | 0, _, _, _ => .error .unclosedBracket
  | fuel + 1, context, collected, text =>
    let text := flags.skip text
    match setOperator? text with
    | some (operator, rest) =>
      readItems flags fuel (some (applyContext flags context collected, operator)) .nothing rest
    | none =>
      match text with
      | [] => .error .unclosedBracket
      | ']' :: rest => .ok (applyContext flags context collected, rest)
      | '[' :: rest =>
        match namedClass? flags rest with
        | some (set, rest) => readItems flags fuel context (.union collected set) rest
        | none => do
          let (set, rest) ← readBracket flags fuel rest
          readItems flags fuel context (.union collected set) rest
      | _ => do
        let (set, rest) ← readSpan flags text
        readItems flags fuel context (.union collected set) rest

end

end ScratchEditor

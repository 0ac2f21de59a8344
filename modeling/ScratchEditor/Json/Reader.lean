import ScratchEditor.Json.Value
import ScratchEditor.Text.Hexadecimal

/-!
# Reading JSON

A JSON document is one value with blanks around it.  The reader checks the
grammar: no trailing commas, no controls inside strings, four hexadecimal
digits after `\u`, and numbers without superfluous zeros.  It does not interpret
the leaves.

Main definitions:

- `Json.parse?`: the value of a document.
-/

namespace ScratchEditor

namespace Json

/-! ## Blanks and words -/

/-- The four characters that may stand between tokens. -/
def isSeparator (c : Char) : Bool :=
  c == ' ' || c == '\t' || c == '\n' || c == '\r'

/-- A text without the separators it begins with. -/
def skip (text : Text) : Text :=
  text.dropWhile isSeparator

/-- What follows a fixed word. -/
def word? (word : Text) (text : Text) : Option Text :=
  if word.isPrefixOf text then some (text.drop word.length) else none

/-! ## Numbers -/

/-- A non-empty run of digits and what follows it. -/
def digits? (text : Text) : Option (Text × Text) :=
  let digits := text.takeWhile Char.isDigit
  if digits.isEmpty then none else some (digits, text.dropWhile Char.isDigit)

/-- An integer part: a single zero, or digits that begin with another one. -/
def integer? (text : Text) : Option (Text × Text) :=
  match text with
  | '0' :: rest => some (['0'], rest)
  | _ => digits? text

/-- A fraction, if one follows. -/
def fraction? (text : Text) : Option (Text × Text) :=
  match text with
  | '.' :: rest => (digits? rest).map fun part => ('.' :: part.1, part.2)
  | _ => some ([], text)

/-- The sign of an exponent, if there is one. -/
def exponentSign (text : Text) : Text × Text :=
  match text with
  | '+' :: rest => (['+'], rest)
  | '-' :: rest => (['-'], rest)
  | _ => ([], text)

/-- An exponent, if one follows. -/
def exponent? (text : Text) : Option (Text × Text) :=
  match text with
  | c :: rest =>
    if c = 'e' ∨ c = 'E' then
      let (sign, rest) := exponentSign rest
      (digits? rest).map fun part => (c :: sign ++ part.1, part.2)
    else some ([], text)
  | [] => some ([], [])

/-- A number without a sign. -/
def unsigned? (text : Text) : Option (Text × Text) := do
  let (whole, rest) ← integer? text
  let (fraction, rest) ← fraction? rest
  let (exponent, rest) ← exponent? rest
  return (whole ++ fraction ++ exponent, rest)

/-- A number and what follows it. -/
def number? (text : Text) : Option (Json × Text) :=
  match text with
  | '-' :: rest => (unsigned? rest).map fun part => (.number ('-' :: part.1), part.2)
  | _ => (unsigned? text).map fun part => (.number part.1, part.2)

/-! ## Strings -/

/-- The letters that may follow a backslash, `u` apart. -/
def isEscapeLetter (c : Char) : Bool :=
  c == '"' || c == '\\' || c == '/' || c == 'b' || c == 'f' || c == 'n' || c == 'r' || c == 't'

/-- The body of a string up to its closing quote, and what follows the quote. -/
def body? : Text → Option (Text × Text)
  | [] => none
  | '"' :: rest => some ([], rest)
  | '\\' :: 'u' :: a :: b :: c :: d :: rest =>
    if isHexDigit a && isHexDigit b && isHexDigit c && isHexDigit d then
      (body? rest).map fun part => ('\\' :: 'u' :: a :: b :: c :: d :: part.1, part.2)
    else none
  | '\\' :: c :: rest =>
    if isEscapeLetter c then (body? rest).map fun part => ('\\' :: c :: part.1, part.2)
    else none
  | c :: rest =>
    if c.toNat < 0x20 ∨ c = '\\' then none
    else (body? rest).map fun part => (c :: part.1, part.2)

/-! ## Values -/

/-- The string that opens with the next character, used for keys. -/
def key? (text : Text) : Option (Text × Text) :=
  match skip text with
  | '"' :: rest => body? rest
  | _ => none

/-- The text after a colon. -/
def colon? (text : Text) : Option Text :=
  match skip text with
  | ':' :: rest => some rest
  | _ => none

mutual

/-- A value at the beginning of a text, and what follows it. -/
def value? : Nat → Text → Option (Json × Text)
  | 0, _ => none
  | fuel + 1, text =>
    match skip text with
    | '{' :: rest =>
      match skip rest with
      | '}' :: rest => some (.object [], rest)
      | _ => (members? fuel rest).map fun part => (.object part.1, part.2)
    | '[' :: rest =>
      match skip rest with
      | ']' :: rest => some (.array [], rest)
      | _ => (items? fuel rest).map fun part => (.array part.1, part.2)
    | '"' :: rest => (body? rest).map fun part => (.string part.1, part.2)
    | 'n' :: rest => (word? ['u', 'l', 'l'] rest).map fun rest => (.null, rest)
    | 't' :: rest => (word? ['r', 'u', 'e'] rest).map fun rest => (.bool true, rest)
    | 'f' :: rest => (word? ['a', 'l', 's', 'e'] rest).map fun rest => (.bool false, rest)
    | rest => number? rest

/-- The items of an array from its next item on, and what follows its bracket. -/
def items? : Nat → Text → Option (List Json × Text)
  | 0, _ => none
  | fuel + 1, text => do
    let (item, rest) ← value? fuel text
    match skip rest with
    | ',' :: rest => (items? fuel rest).map fun part => (item :: part.1, part.2)
    | ']' :: rest => some ([item], rest)
    | _ => none

/-- The members of an object from its next key on, and what follows its brace. -/
def members? : Nat → Text → Option (List (Text × Json) × Text)
  | 0, _ => none
  | fuel + 1, text => do
    let (key, rest) ← key? text
    let rest ← colon? rest
    let (value, rest) ← value? fuel rest
    match skip rest with
    | ',' :: rest => (members? fuel rest).map fun part => ((key, value) :: part.1, part.2)
    | '}' :: rest => some ([(key, value)], rest)
    | _ => none

end

/-- The value of a document. -/
def parse? (text : Text) : Option Json :=
  match value? (2 * text.length + 1) text with
  | some (value, rest) => if (skip rest).isEmpty then some value else none
  | none => none

end Json

end ScratchEditor

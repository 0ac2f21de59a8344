import ScratchEditor.Json.Escape
import ScratchEditor.Text.Decimal

/-!
# Writing JSON

Files are written with one member or item a line, indented by two spaces a
level; an empty array or object stays on its line.  Answers to a program are
written without blanks.

Main definitions:

- `Json.pretty` and `Json.compact`.
-/

namespace ScratchEditor

namespace Json

/-- Texts put together with a separator between neighbours. -/
def joinWith (separator : Text) : List Text → Text
  | [] => []
  | [last] => last
  | first :: rest => first ++ separator ++ joinWith separator rest

/-- A string body between its quotes. -/
def quoteBody (body : Text) : Text :=
  '"' :: body ++ ['"']

/-- A new line, indented for a level. -/
def newLine (level : Nat) : Text :=
  '\n' :: List.replicate (2 * level) ' '

/-- Parts between brackets: on lines of their own, or nothing between the brackets. -/
def enclose (opening closing : Char) (level : Nat) (parts : List Text) : Text :=
  match parts with
  | [] => [opening, closing]
  | _ =>
    [opening] ++ newLine (level + 1) ++ joinWith (',' :: newLine (level + 1)) parts ++
      newLine level ++ [closing]

mutual

/-- A value whose own line is indented for a level. -/
def prettyAt (level : Nat) : Json → Text
  | null => ['n', 'u', 'l', 'l']
  | bool true => ['t', 'r', 'u', 'e']
  | bool false => ['f', 'a', 'l', 's', 'e']
  | number spelling => spelling
  | string body => quoteBody body
  | array items => enclose '[' ']' level (prettyItems (level + 1) items)
  | object members => enclose '{' '}' level (prettyMembers (level + 1) members)

/-- The items of an array. -/
def prettyItems (level : Nat) : List Json → List Text
  | [] => []
  | item :: rest => prettyAt level item :: prettyItems level rest

/-- The members of an object. -/
def prettyMembers (level : Nat) : List (Text × Json) → List Text
  | [] => []
  | (key, value) :: rest =>
    (quoteBody key ++ [':', ' '] ++ prettyAt level value) :: prettyMembers level rest

end

/-- A value as a file shows it. -/
def pretty (value : Json) : Text :=
  prettyAt 0 value

mutual

/-- A value without blanks. -/
def compact : Json → Text
  | null => ['n', 'u', 'l', 'l']
  | bool true => ['t', 'r', 'u', 'e']
  | bool false => ['f', 'a', 'l', 's', 'e']
  | number spelling => spelling
  | string body => quoteBody body
  | array items => '[' :: joinWith [','] (compactItems items) ++ [']']
  | object members => '{' :: joinWith [','] (compactMembers members) ++ ['}']

/-- The items of an array without blanks. -/
def compactItems : List Json → List Text
  | [] => []
  | item :: rest => compact item :: compactItems rest

/-- The members of an object without blanks. -/
def compactMembers : List (Text × Json) → List Text
  | [] => []
  | (key, value) :: rest => (quoteBody key ++ [':'] ++ compact value) :: compactMembers rest

end

/-- The value of a number. -/
def ofNat (n : Nat) : Json :=
  .number (decimal n)

/-- The value of an integer. -/
def ofInt (n : Int) : Json :=
  .number (decimalInt n)

end Json

end ScratchEditor

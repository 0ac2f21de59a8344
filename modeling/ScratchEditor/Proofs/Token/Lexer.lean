import ScratchEditor.Proofs.Text.Runs
import ScratchEditor.Token.Category

/-!
# A lexer without patterns

The tokens of a text can be read off its characters directly.  At every place the kinds of
tokens are tried in order of precedence, each by a rule of its own; the first one that
applies makes a token, and reading goes on behind it.

Main definitions:

- `Lexer.length?`: the length of the token of a kind that begins at a place.
- `Lexer.first?`: the token that begins at a place.
- `Lexer.tokens`: the tokens of a text.
-/

namespace ScratchEditor

namespace Lexer

/-! ## Edges of words -/

/-- Exactly one of two neighbours belongs to a word. -/
def isEdge (before after : Option Char) : Bool :=
  before.any isWordChar != after.any isWordChar

/-- A word begins or ends behind so many characters of a text that follows a character. -/
def edgeBehind (before : Option Char) (text : Text) (n : Nat) : Bool :=
  isEdge ((text.take n).getLast?.or before) (text.drop n).head?

/-! ## Quotes -/

/-- The text begins with a backslash and a character on the same line. -/
def escapes : Text → Bool
  | '\\' :: c :: _ => c != '\n'
  | _ => false

/-- In single quotes: an escape, or a run without quotes and backslashes. -/
def character? : Text → Option Nat
  | '\'' :: rest =>
    let inside :=
      if escapes rest then 2 else Text.runLength (fun c => c != '\'' && c != '\\') rest
    if (rest.drop inside).head? = some '\'' then some (inside + 2) else none
  | _ => none

/-- The characters up to the quote that closes a string, with the quote. -/
def closingQuote? : Text → Option Nat
  | [] => none
  | '\\' :: c :: rest => if c = '\n' then none else (closingQuote? rest).map (· + 2)
  | c :: rest =>
    if c = '"' then some 1 else if c = '\\' then none else (closingQuote? rest).map (· + 1)

/-- In double quotes: escapes, and characters other than quotes and backslashes. -/
def string? : Text → Option Nat
  | '"' :: rest => (closingQuote? rest).map (· + 1)
  | _ => none

/-! ## Words -/

/-- The digits behind the point with which a text begins. -/
def fractionLength : Text → Nat
  | '.' :: rest => Text.runLength isDecimalDigit rest
  | _ => 0

/-- Digits with a fraction, or else digits, that fill a word. -/
def number? (before : Option Char) (text : Text) : Option Nat :=
  let whole := text.runLength isDecimalDigit
  let fraction := fractionLength (text.drop whole)
  if !edgeBehind before text 0 || whole = 0 then none
  else if 0 < fraction && edgeBehind before text (whole + 1 + fraction) then
    some (whole + 1 + fraction)
  else if edgeBehind before text whole then some whole
  else none

/-- The first of some keywords that fills a word. -/
def keyword? (keywords : List Text) (before : Option Char) (text : Text) : Option Nat :=
  (keywords.find? fun keyword =>
    edgeBehind before text 0 && keyword.isPrefixOf text &&
      edgeBehind before text keyword.length).map List.length

/-- A capital letter of ASCII. -/
def isCapital (c : Char) : Bool :=
  'A' ≤ c && c ≤ 'Z'

/-- A letter or digit of ASCII, or an underscore. -/
def isAsciiWord (c : Char) : Bool :=
  isCapital c || ('a' ≤ c && c ≤ 'z') || ('0' ≤ c && c ≤ '9') || c == '_'

/-- A word of ASCII characters that begins with a capital letter. -/
def typeName? (before : Option Char) : Text → Option Nat
  | [] => none
  | c :: rest =>
    let length := Text.runLength isAsciiWord rest + 1
    if isCapital c && edgeBehind before (c :: rest) 0 && edgeBehind before (c :: rest) length then
      some length
    else none

/-! ## Comments -/

/-- The characters through the first star with a slash behind it, or all of them. -/
def blockLength : Text → Nat
  | [] => 0
  | '*' :: '/' :: _ => 2
  | _ :: rest => blockLength rest + 1

/-- From a slash and a star through the next star and slash, or from two slashes to the end
of the line. -/
def comment? : Text → Option Nat
  | '/' :: '*' :: rest => some (blockLength rest + 2)
  | '/' :: '/' :: rest => some (Text.runLength (· != '\n') rest + 2)
  | _ => none

/-! ## Tokens -/

/-- The length of the token of a kind with which a text begins that follows a character. -/
def length? (keywords : List Text) (before : Option Char) (text : Text) : TokenKind → Option Nat
  | .character => character? text
  | .number => number? before text
  | .keyword => keyword? keywords before text
  | .typeName => typeName? before text
  | .string => string? text
  | .comment => comment? text

/-- The token with which a text begins: that of the first kind that has one. -/
def first? (keywords : List Text) (before : Option Char) (text : Text) : Option (TokenKind × Nat) :=
  TokenKind.precedence.findSome? fun kind =>
    (length? keywords before text kind).map fun length => (kind, length)

/-- The tokens of a text from an offset on, where `rest` more characters belong to a token. -/
def tokensFrom (keywords : List Text) :
    (offset rest : Nat) → Option Char → Text → List (TokenKind × Extent)
  | _, _, _, [] => []
  | offset, rest + 1, _, c :: text => tokensFrom keywords (offset + 1) rest (some c) text
  | offset, 0, before, c :: text =>
    match first? keywords before (c :: text) with
    | none => tokensFrom keywords (offset + 1) 0 (some c) text
    | some (kind, length) =>
      (kind, ⟨offset, length⟩) :: tokensFrom keywords (offset + 1) (length - 1) (some c) text

/-- The tokens of a text. -/
def tokens (keywords : List Text) (text : Text) : List (TokenKind × Extent) :=
  tokensFrom keywords 0 0 none text

/-- A keyword inside a string is no token of its own, and `1.` is a number before a point. -/
example : tokens ["if".toList] "if\"if\"1.x".toList =
    [(.keyword, ⟨0, 2⟩), (.string, ⟨2, 4⟩), (.number, ⟨6, 1⟩)] := by
  decide +kernel

end Lexer

end ScratchEditor

import ScratchEditor.Pattern.Parser
import ScratchEditor.Settings.Basic

/-!
# Categories of tokens

The highlighter tells six kinds of tokens apart.  A category gives a kind its
pattern and its style; the categories of the settings are listed with the strict
patterns before the greedy ones, so that these do not hide them.

Main definitions:

- `Style`, `TokenKind` and `Category`.
- `keywordPattern`: the pattern for a list of keywords.
- `Category.table`: the categories that settings give.
-/

namespace ScratchEditor

/-- How a stretch of text is drawn. -/
structure Style where
  color : Color
  bold : Bool
deriving DecidableEq

/-- The style of a color in regular weight. -/
def Style.regular (color : Color) : Style :=
  ⟨color, false⟩

/-- The style of a color in bold weight. -/
def Style.heavy (color : Color) : Style :=
  ⟨color, true⟩

/-- A kind of token. -/
inductive TokenKind
  | character
  | number
  | keyword
  | typeName
  | string
  | comment
deriving DecidableEq

namespace TokenKind

/-- All kinds, the ones that win over others first. -/
def precedence : List TokenKind :=
  [character, number, keyword, typeName, string, comment]

/-- The name of a kind. -/
def name : TokenKind → String
  | character => "character"
  | number => "number"
  | keyword => "keyword"
  | typeName => "type-name"
  | string => "string"
  | comment => "comment"

/-- The kind that a name belongs to. -/
def ofName? (name : String) : Option TokenKind :=
  precedence.find? (·.name == name)

end TokenKind

/-- A kind of token with the pattern that finds it and the style it is drawn in. -/
structure Category where
  kind : TokenKind
  pattern : Text
  style : Style
deriving DecidableEq

/-! ## The patterns of the settings -/

/-- A character in single quotes: an escape, or a run without quotes and backslashes. -/
def characterPattern : Text :=
  "'(?:\\\\.|[^'\\\\]*)'".toList

/-- Digits with at most one fraction, not inside a word. -/
def numberPattern : Text :=
  "\\b\\d+(?:\\.\\d+)?\\b".toList

/-- A word of ASCII characters that begins with a capital letter. -/
def typeNamePattern : Text :=
  "\\b[A-Z][A-Za-z0-9_]*\\b".toList

/-- A string in double quotes with escapes. -/
def stringPattern : Text :=
  "\"(?:\\\\.|[^\"\\\\])*\"".toList

/-- A closed block comment, one left open to the end of the region, or a line comment. -/
def commentPattern : Text :=
  "/\\*[\\s\\S]*?\\*/|/\\*[\\s\\S]*$|//.*".toList

/-- Texts put together with bars between them. -/
def joinAlternatives : List Text → Text
  | [] => []
  | [last] => last
  | first :: rest => first ++ '|' :: joinAlternatives rest

/--
The pattern that finds one of some keywords as a whole word.  There is none for
an empty list, since an empty alternative would match at every edge of a word.
-/
def keywordPattern (keywords : List Text) : Option Text :=
  if keywords.isEmpty then none
  else some ("\\b(?:".toList ++ joinAlternatives (keywords.map Pattern.escape) ++ ")\\b".toList)

/-- The category that settings give for a kind. -/
def Category.forKind? (colors : TokenColors) (keywords : List Text) :
    TokenKind → Option Category
  | .character => some ⟨.character, characterPattern, .regular colors.character⟩
  | .number => some ⟨.number, numberPattern, .regular colors.number⟩
  | .keyword => (keywordPattern keywords).map fun pattern =>
    ⟨.keyword, pattern, .heavy colors.keyword⟩
  | .typeName => some ⟨.typeName, typeNamePattern, .heavy colors.typeName⟩
  | .string => some ⟨.string, stringPattern, .regular colors.string⟩
  | .comment => some ⟨.comment, commentPattern, .regular colors.comment⟩

/-- The categories that settings give, in order of precedence. -/
def Category.table (colors : TokenColors) (keywords : List Text) : List Category :=
  TokenKind.precedence.filterMap (forKind? colors keywords)

end ScratchEditor

import ScratchEditor.Text.Basic

/-!
# Words of shell scripts

A word is made of pieces: text, quoted or not, and references to parameters,
sums and other commands, which are replaced by their values when the word is
used.

Main definitions:

- `Piece` and `Word`.
- `ShellLexer.readWord` and `ShellLexer.readQuoted`: a word, and the inside of
  double quotes.
-/

namespace ScratchEditor

/-- What is done with the value of a parameter. -/
inductive ParameterRule
  /-- Another text stands in for a missing value. -/
  | fallback
  /-- Another text becomes the value of a parameter without one. -/
  | assign
  /-- Another text stands in for a value that is there. -/
  | instead
  /-- A missing value ends the script. -/
  | demand
  /-- The shortest or the longest beginning that fits a pattern is dropped. -/
  | dropStart (longest : Bool)
  /-- The shortest or the longest end that fits a pattern is dropped. -/
  | dropEnd (longest : Bool)
deriving DecidableEq

/-- A rule with its text; `emptyCounts` says that an empty value is as good as none. -/
structure ParameterUse where
  rule : ParameterRule
  emptyCounts : Bool
  text : Text
deriving DecidableEq

/-- A part of a word; `quoted` parts are never split at blanks. -/
inductive Piece
  | plain (text : Text) (quoted : Bool)
  /-- The value of a parameter, by a rule if there is one. -/
  | parameter (name : Text) (use : Option ParameterUse) (quoted : Bool)
  /-- The number of bytes in the value of a parameter. -/
  | size (name : Text)
  /-- The value of an arithmetic expression. -/
  | sum (expression : Text)
  /-- What a script prints. -/
  | command (script : Text) (quoted : Bool)
  /-- A reference that makes no sense. -/
  | nonsense
deriving DecidableEq

/-- A word as written. -/
abbrev Word :=
  List Piece

/-- What a script does not close before its end. -/
inductive Unclosed
  | quotes
  | braces
  | sum
  | command
  | graveAccent
deriving DecidableEq

/-- How messages tell what is not closed. -/
def Unclosed.words : Unclosed → String
  | .quotes => "Unterminated quoted string"
  | .braces => "Missing '\x7d'"
  | .sum => "Missing '))'"
  | .command => "end of file unexpected (expecting \")\")"
  | .graveAccent => "EOF in backquote substitution"

namespace ShellLexer

/-! ## Characters -/

/-- The grave accent, which encloses commands. -/
def graveAccent : Char :=
  Char.ofNat 96

/-- The characters that end a word. -/
def endsWord (c : Char) : Bool :=
  c == ' ' || c == '\t' || c == '\n' || c == ';' || c == '&' || c == '|' || c == '<' ||
    c == '>' || c == '(' || c == ')'

/-- The characters that a name may begin with. -/
def isNameStart (c : Char) : Bool :=
  c.isAlpha || c == '_'

/-- The characters of a name. -/
def isNameChar (c : Char) : Bool :=
  c.isAlphanum || c == '_'

/-- The parameters with a name of one special character. -/
def isSpecialName (c : Char) : Bool :=
  c == '?' || c == '#' || c == '$' || c == '!' || c == '@' || c == '*' || c == '-'

/-! ## Nested texts -/

/-- The text up to a closing quote, and what follows it. -/
def upTo (closing : Char) : Text → Option (Text × Text)
  | [] => none
  | c :: rest =>
    if c = closing then some ([], rest)
    else (upTo closing rest).map fun part => (c :: part.1, part.2)

/-- The text up to the bracket that closes `depth` open ones; what stands in quotes of a kind is
kept whole. -/
def upToClosing (opening closing : Char) (quotes : Text) :
    Nat → Nat → Text → Option (Text × Text)
  | 0, _, _ => none
  | _ + 1, _, [] => none
  | fuel + 1, depth, c :: rest =>
    let go (depth : Nat) (rest : Text) : Option (Text × Text) :=
      (upToClosing opening closing quotes fuel depth rest).map fun part => (c :: part.1, part.2)
    if c = '\\' then
      match rest with
      | [] => none
      | d :: rest =>
        (upToClosing opening closing quotes fuel depth rest).map
          fun part => (c :: d :: part.1, part.2)
    else if quotes.contains c then
      match upTo c rest with
      | none => none
      | some (inside, rest) =>
        (upToClosing opening closing quotes fuel depth rest).map
          fun part => (c :: inside ++ c :: part.1, part.2)
    else if c = opening then go (depth + 1) rest
    else if c = closing then if depth = 0 then some ([], rest) else go (depth - 1) rest
    else go depth rest

/-- A part of a script that is closed, or what is not closed. -/
def closedOr (fault : Unclosed) : Option (Text × Text) → Except Unclosed (Text × Text)
  | some part => .ok part
  | none => .error fault

/-! ## References -/

/-- The rule behind the name of a parameter. -/
def parameterUse? : Text → Option ParameterUse
  | ':' :: '-' :: text => some ⟨.fallback, true, text⟩
  | '-' :: text => some ⟨.fallback, false, text⟩
  | ':' :: '=' :: text => some ⟨.assign, true, text⟩
  | '=' :: text => some ⟨.assign, false, text⟩
  | ':' :: '+' :: text => some ⟨.instead, true, text⟩
  | '+' :: text => some ⟨.instead, false, text⟩
  | ':' :: '?' :: text => some ⟨.demand, true, text⟩
  | '?' :: text => some ⟨.demand, false, text⟩
  | '#' :: '#' :: text => some ⟨.dropStart true, false, text⟩
  | '#' :: text => some ⟨.dropStart false, false, text⟩
  | '%' :: '%' :: text => some ⟨.dropEnd true, false, text⟩
  | '%' :: text => some ⟨.dropEnd false, false, text⟩
  | _ => none

/-- The name of a parameter at the beginning of a text. -/
def parameterName (text : Text) : Text :=
  match text with
  | [] => []
  | c :: _ =>
    if isNameStart c then text.takeWhile isNameChar
    else if c.isDigit then text.takeWhile Char.isDigit
    else if isSpecialName c then [c]
    else []

/-- What stands between the braces of a reference. -/
def bracedPiece (inside : Text) (quoted : Bool) : Piece :=
  match inside with
  | '#' :: c :: rest =>
    if parameterName (c :: rest) = c :: rest then .size (c :: rest) else .nonsense
  | _ =>
    let name := parameterName inside
    match inside.drop name.length with
    | [] => if name.isEmpty then .nonsense else .parameter name none quoted
    | rest =>
      match parameterUse? rest with
      | some use => if name.isEmpty then .nonsense else .parameter name (some use) quoted
      | none => .nonsense

/-- The characters that quote inside braces. -/
def quotesInBraces (quoted : Bool) : Text :=
  if quoted then ['"'] else ['\'', '"']

/-- The piece behind a dollar sign, and what follows it. -/
def readReference (quoted : Bool) (text : Text) : Except Unclosed (Piece × Text) :=
  match text with
  | '(' :: '(' :: rest =>
    match upToClosing '(' ')' ['\'', '"'] (rest.length + 1) 0 rest with
    | some (inside, ')' :: rest) => .ok (.sum inside, rest)
    | _ => .error .sum
  | '(' :: rest => do
    let (inside, rest) ←
      closedOr .command (upToClosing '(' ')' ['\'', '"'] (rest.length + 1) 0 rest)
    return (.command inside quoted, rest)
  | '{' :: rest => do
    let (inside, rest) ←
      closedOr (if quoted then .quotes else .braces)
        (upToClosing '{' '}' (quotesInBraces quoted) (rest.length + 1) 0 rest)
    return (bracedPiece inside quoted, rest)
  | c :: rest =>
    if isNameStart c then
      let name := text.takeWhile isNameChar
      .ok (.parameter name none quoted, text.drop name.length)
    else if c.isDigit || isSpecialName c then .ok (.parameter [c] none quoted, rest)
    else .ok (.plain ['$'] true, text)
  | [] => .ok (.plain ['$'] true, [])

/-! ## Words -/

/-- What a double quote does in a text whose characters are quoted. -/
inductive QuoteRule
  /-- It ends the text. -/
  | closes
  /-- It stands for itself. -/
  | stays
  /-- It is left out. -/
  | vanishes
deriving DecidableEq

/-- A piece before others. -/
def followedBy (piece : Piece) (part : Word × Text) : Word × Text :=
  (piece :: part.1, part.2)

/-- The pieces up to a closing double quote, or to the end of a text that has none. -/
def readQuoted (rule : QuoteRule) : Nat → Text → Except Unclosed (Word × Text)
  | 0, _ => .error .quotes
  | fuel + 1, text =>
    match text with
    | [] => if rule = .closes then .error .quotes else .ok ([], [])
    | c :: rest =>
      if c = '"' ∧ rule = .closes then .ok ([], rest)
      else if c = '"' ∧ rule = .vanishes then readQuoted rule fuel rest
      else if c = '\\' then
        match rest with
        | [] => .ok ([.plain ['\\'] true], [])
        | d :: rest =>
          if d = '\n' then readQuoted rule fuel rest
          else
            let kept : Text :=
              if d = '$' ∨ d = '\\' ∨ d = graveAccent ∨ (d = '"' ∧ rule ≠ .stays) then [d]
              else ['\\', d]
            (readQuoted rule fuel rest).map (followedBy (.plain kept true))
      else if c = '$' then do
        let (piece, rest) ← readReference true rest
        (readQuoted rule fuel rest).map (followedBy piece)
      else if c = graveAccent then do
        let (script, rest) ← closedOr .graveAccent (upTo graveAccent rest)
        (readQuoted rule fuel rest).map (followedBy (.command script true))
      else (readQuoted rule fuel rest).map (followedBy (.plain [c] true))

/-- Quoted pieces as a part of a word: they make a field even when they are empty, unless they stand
for the list of arguments. -/
def quotedPart (inside : Word) : Word :=
  if inside.any fun piece => piece == .parameter ['@'] none true then inside
  else .plain [] true :: inside

/-- A word at the beginning of a text, or all of the text as one word, and what follows it. -/
def readWord (whole : Bool) : Nat → Text → Except Unclosed (Word × Text)
  | 0, _ => .error .quotes
  | fuel + 1, text =>
    match text with
    | [] => .ok ([], [])
    | c :: rest =>
      if endsWord c && !whole then .ok ([], text)
      else if c = '\\' then
        match rest with
        | [] => .ok ([.plain ['\\'] true], [])
        | d :: rest =>
          if d = '\n' then readWord whole fuel rest
          else (readWord whole fuel rest).map (followedBy (.plain [d] true))
      else if c = '\'' then do
        let (inside, rest) ← closedOr .quotes (upTo '\'' rest)
        (readWord whole fuel rest).map (followedBy (.plain inside true))
      else if c = '"' then do
        let (inside, rest) ← readQuoted .closes (rest.length + 1) rest
        (readWord whole fuel rest).map fun part => (quotedPart inside ++ part.1, part.2)
      else if c = '$' then do
        let (piece, rest) ← readReference false rest
        (readWord whole fuel rest).map (followedBy piece)
      else if c = graveAccent then do
        let (script, rest) ← closedOr .graveAccent (upTo graveAccent rest)
        (readWord whole fuel rest).map (followedBy (.command script false))
      else (readWord whole fuel rest).map (followedBy (.plain [c] false))

/-- The text of a word, and whether some of it is quoted. -/
def literalOf : Word → Text × Bool
  | [] => ([], false)
  | .plain text quoted :: rest =>
    let (more, inner) := literalOf rest
    (text ++ more, quoted || inner)
  | _ :: rest => literalOf rest

end ShellLexer

namespace Word

/-- A text as the inside of quotes is read. -/
def ofQuoted (rule : ShellLexer.QuoteRule) (text : Text) : Word :=
  match ShellLexer.readQuoted rule (text.length + 1) text with
  | .ok (word, _) => word
  | .error _ => [.plain text true]

/-- A text as one word. -/
def ofUnquoted (text : Text) : Word :=
  match ShellLexer.readWord true (text.length + 1) text with
  | .ok (word, _) => word
  | .error _ => [.plain text true]

/-- The text of a word without quotes and references. -/
def bare? : Word → Option Text
  | [] => some []
  | .plain text false :: rest => (bare? rest).map (text ++ ·)
  | _ => none

@[simp]
theorem ofUnquoted_nil : ofUnquoted [] = [] :=
  rfl

end Word

end ScratchEditor

import ScratchEditor.Shell.Token

/-!
# Commands of shell scripts

Commands are put together from simple ones by sequence, conditions, loops and
grouping.  A script is understood line by line, so the lines before a fault are
commands that can be run.

Main definitions:

- `Redirect` and `Command`.
- `ScriptFault`: where and why a script is not understood.
- `Command.parse`: the command that a script stands for.
-/

namespace ScratchEditor

/-- A redirection of a descriptor to what a word names. -/
structure Redirect where
  descriptor : Nat
  kind : RedirectKind
  target : Word

/-- A command. -/
inductive Command
  | nothing
  /-- A program with its arguments, after assignments and with redirections, on a line. -/
  | simple (assignments : List (Text × Word)) (words : List Word) (redirects : List Redirect)
      (line : Nat)
  /-- One command after the other. -/
  | sequence (first second : Command)
  /-- A command that runs on its own while the script goes on. -/
  | background (body : Command)
  /-- The second only if the first succeeds, or only if it fails. -/
  | andThen (first second : Command)
  | orElse (first second : Command)
  /-- What the first prints is read by the second. -/
  | pipe (first second : Command)
  | negate (body : Command)
  | branch (condition yes no : Command)
  /-- Repeats a body while a condition succeeds, or fails; `last` is the status so far. -/
  | loop (whileFails : Bool) (condition body : Command) (last : Nat)
  /-- Repeats a body for each of some words. -/
  | each (name : Text) (words : List Word) (body : Command)
  /-- Runs a body if a word fits one of some patterns, and otherwise goes on to other cases. -/
  | cases (subject : Word) (patterns : List Word) (body others : Command)
  /-- Gives a name to a body. -/
  | define (name : Text) (body : Command)
  | group (body : Command) (redirects : List Redirect)
  /-- A command whose changes to the state of the shell are forgotten. -/
  | isolate (body : Command) (redirects : List Redirect)

/-- The line on which a script is not understood, and why. -/
structure ScriptFault where
  line : Nat
  words : String
deriving DecidableEq

namespace Command

/-! ## Faults -/

/-- The words with a meaning of their own at the beginning of a command. -/
def reservedWords : List String :=
  ["!", "case", "do", "done", "elif", "else", "esac", "fi", "for", "if", "in", "then", "until",
    "while", "\x7b", "\x7d"]

/-- The reserved words that begin no command. -/
def closingWords : List String :=
  ["then", "else", "elif", "fi", "do", "done", "esac", "in", "\x7d"]

/-- A word between quotation marks. -/
def marked (word : String) : String :=
  "\"" ++ word ++ "\""

/-- How messages name a token. -/
def tokenName (token : ShellToken) : String :=
  match token.kind with
  | .word word =>
    match (word.bare?).map String.ofList with
    | some text => if reservedWords.contains text then marked text else "word"
    | none => "word"
  | .operator operator => operator.name
  | .redirect _ _ => "redirection"
  | .document _ => "word"
  | .fault words => words
  | .finish => "end of file"

/-- The fault that a token is where another one, which may be known, should be. -/
def unexpected (tokens : List ShellToken) (expected : Option String) : ScriptFault :=
  match tokens with
  | [] => ⟨1, "end of file unexpected"⟩
  | token :: _ =>
    match token.kind with
    | .fault words => ⟨token.line, words⟩
    | _ =>
      let expecting :=
        match expected with
        | some name => " (expecting " ++ name ++ ")"
        | none => ""
      ⟨token.line, tokenName token ++ " unexpected" ++ expecting⟩

/-! ## Tokens of interest -/

/-- Whether the next token is a given bare word. -/
def startsWith (text : String) (tokens : List ShellToken) : Bool :=
  (tokens.head?.map fun token => token.isWord text).getD false

/-- Whether the next token is a given operator. -/
def startsWithOperator (operator : ShellOperator) (tokens : List ShellToken) : Bool :=
  (tokens.head?.map fun token => token.isOperator operator).getD false

/-- What follows a given bare word. -/
def expect (text : String) (tokens : List ShellToken) : Except ScriptFault (List ShellToken) :=
  if startsWith text tokens then .ok tokens.tail
  else .error (unexpected tokens (some (marked text)))

/-- What follows a given operator. -/
def expectOperator (operator : ShellOperator) (tokens : List ShellToken) :
    Except ScriptFault (List ShellToken) :=
  if startsWithOperator operator tokens then .ok tokens.tail
  else .error (unexpected tokens (some operator.name))

/-- Whether a list of commands ends here. -/
def isClosing : List ShellToken → Bool
  | [] => true
  | token :: _ =>
    token.kind == .finish || token.isOperator .closing || token.isOperator .caseEnd ||
      closingWords.any token.isWord

/-- Whether the script ends here. -/
def isFinished (tokens : List ShellToken) : Bool :=
  (tokens.head?.map (·.kind == .finish)).getD true

/-- Whether a token is a line end. -/
def isNewline (token : ShellToken) : Bool :=
  token.isOperator .newline

/-- Whether a token separates commands without meaning more. -/
def isSeparator (token : ShellToken) : Bool :=
  isNewline token || token.isOperator .semicolon

/-- The name and the value of an assignment. -/
def assignment? : Word → Option (Text × Word) :=
  go []
where
  /-- Looks for the equals sign behind the characters of a name, given in reverse. -/
  go (name : Text) : Word → Option (Text × Word)
    | .plain [c] false :: rest =>
      if c = '=' then if name.isEmpty then none else some (name.reverse, rest)
      else if (if name.isEmpty then ShellLexer.isNameStart c else ShellLexer.isNameChar c) then
        go (c :: name) rest
      else none
    | _ => none

/-- Whether a text is a name of a variable. -/
def isName (text : Text) : Bool :=
  (text.head?.map ShellLexer.isNameStart).getD false && text.all ShellLexer.isNameChar

/-- The commands that cannot be given another meaning. -/
def fixedNames : List String :=
  ["break", "continue", "eval", "exec", "exit", "export", "readonly", "return", "set", "shift",
    "times", "trap", "unset"]

/-- Whether a text may name a function. -/
def isFunctionName (text : Text) : Bool :=
  isName text && !fixedNames.contains (String.ofList text)

/-! ## Simple commands -/

/-- The redirection of a descriptor behind its operator. -/
def redirectTarget (documents : List Word) (descriptor : Nat) (kind : RedirectKind)
    (tokens : List ShellToken) : Except ScriptFault (Redirect × List ShellToken) :=
  match tokens with
  | ⟨.document number, _⟩ :: rest => .ok (⟨descriptor, kind, documents[number]?.getD []⟩, rest)
  | ⟨.word word, _⟩ :: rest => .ok (⟨descriptor, kind, word⟩, rest)
  | _ => .error (unexpected tokens none)

/-- The redirections at the beginning of some tokens. -/
def readRedirects (documents : List Word) : Nat → List ShellToken →
    Except ScriptFault (List Redirect × List ShellToken)
  | fuel + 1, ⟨.redirect descriptor kind, _⟩ :: rest => do
    let (redirect, rest) ← redirectTarget documents descriptor kind rest
    let (more, rest) ← readRedirects documents fuel rest
    return (redirect :: more, rest)
  | _, tokens => .ok ([], tokens)

/-- The parts of a simple command. -/
structure Parts where
  assignments : List (Text × Word)
  words : List Word
  redirects : List Redirect

/-- The words and redirections of a simple command; assignments come before the first word. -/
def readParts (documents : List Word) : Nat → Bool → List ShellToken →
    Except ScriptFault (Parts × List ShellToken)
  | fuel + 1, leading, ⟨.word word, _⟩ :: rest =>
    match if leading then assignment? word else none with
    | some assignment => do
      let (parts, rest) ← readParts documents fuel true rest
      return ({ parts with assignments := assignment :: parts.assignments }, rest)
    | none => do
      let (parts, rest) ← readParts documents fuel false rest
      return ({ parts with words := word :: parts.words }, rest)
  | fuel + 1, leading, ⟨.redirect descriptor kind, _⟩ :: rest => do
    let (redirect, rest) ← redirectTarget documents descriptor kind rest
    let (parts, rest) ← readParts documents fuel leading rest
    return ({ parts with redirects := redirect :: parts.redirects }, rest)
  | _, _, tokens => .ok (⟨[], [], []⟩, tokens)

/-- A simple command of at least one part. -/
def readSimple (documents : List Word) (tokens : List ShellToken) :
    Except ScriptFault (Command × List ShellToken) := do
  let (parts, rest) ← readParts documents tokens.length true tokens
  let line := (tokens.head?.map (·.line)).getD 1
  if parts.assignments.isEmpty && parts.words.isEmpty && parts.redirects.isEmpty then
    throw (unexpected tokens none)
  else return (simple parts.assignments parts.words parts.redirects line, rest)

/-- The words up to the end of a line or a semicolon. -/
def wordsUpToEnd : List ShellToken → Except ScriptFault (List Word × List ShellToken)
  | ⟨.word word, _⟩ :: rest => do
    let (words, rest) ← wordsUpToEnd rest
    return (word :: words, rest)
  | tokens =>
    if (tokens.head?.map isSeparator).getD false then .ok ([], tokens)
    else .error (unexpected tokens none)

/-- The patterns of a case up to its closing parenthesis. -/
def readPatterns : List ShellToken → Except ScriptFault (List Word × List ShellToken)
  | ⟨.word word, _⟩ :: rest =>
    match rest with
    | ⟨.operator .closing, _⟩ :: rest => .ok ([word], rest)
    | ⟨.operator .bar, _⟩ :: rest => do
      let (words, rest) ← readPatterns rest
      return (word :: words, rest)
    | _ => .error (unexpected rest (some ShellOperator.closing.name))
  | tokens => .error (unexpected tokens (some ShellOperator.closing.name))

/-- A body with redirections, if there are any. -/
def withRedirects (documents : List Word) (body : Command) (tokens : List ShellToken) :
    Except ScriptFault (Command × List ShellToken) := do
  let (redirects, rest) ← readRedirects documents tokens.length tokens
  if redirects.isEmpty then return (body, rest) else return (group body redirects, rest)

/-- The fault that commands are nested too deeply to be read. -/
def tooDeep {α : Type} (tokens : List ShellToken) : Except ScriptFault α :=
  .error (unexpected tokens none)

/-! ## The grammar -/

mutual

/-- Commands up to a closing word, a closing parenthesis or the end. -/
def readList (documents : List Word) : Nat → Bool → List ShellToken →
    Except ScriptFault (Command × List ShellToken)
  | 0, _, tokens => tooDeep tokens
  | fuel + 1, mayBeEmpty, tokens =>
    let tokens := tokens.dropWhile isNewline
    if isFinished tokens || mayBeEmpty && isClosing tokens then .ok (nothing, tokens)
    else do
      let (first, rest) ← readConditional documents fuel tokens
      match rest with
      | token :: more =>
        if token.isOperator .ampersand then
          let (second, rest) ← readList documents fuel true more
          return (sequence (background first) second, rest)
        else if isSeparator token then
          let (second, rest) ← readList documents fuel true more
          return (sequence first second, rest)
        else return (first, rest)
      | [] => return (first, [])

/-- Pipelines joined by conditions. -/
def readConditional (documents : List Word) : Nat → List ShellToken →
    Except ScriptFault (Command × List ShellToken)
  | 0, tokens => tooDeep tokens
  | fuel + 1, tokens => do
    let (first, rest) ← readPipeline documents fuel tokens
    readMoreConditional documents fuel first rest

/-- What is joined to a pipeline. -/
def readMoreConditional (documents : List Word) :
    Nat → Command → List ShellToken → Except ScriptFault (Command × List ShellToken)
  | 0, _, tokens => tooDeep tokens
  | fuel + 1, first, tokens =>
    if startsWithOperator .andIf tokens then do
      let (second, rest) ← readPipeline documents fuel (tokens.tail.dropWhile isNewline)
      readMoreConditional documents fuel (andThen first second) rest
    else if startsWithOperator .orIf tokens then do
      let (second, rest) ← readPipeline documents fuel (tokens.tail.dropWhile isNewline)
      readMoreConditional documents fuel (orElse first second) rest
    else .ok (first, tokens)

/-- Commands joined by bars, perhaps negated. -/
def readPipeline (documents : List Word) : Nat → List ShellToken →
    Except ScriptFault (Command × List ShellToken)
  | 0, tokens => tooDeep tokens
  | fuel + 1, tokens =>
    if startsWith "!" tokens then do
      let (body, rest) ← readPipeline documents fuel tokens.tail
      return (negate body, rest)
    else do
      let (first, rest) ← readCommand documents fuel tokens
      if startsWithOperator .bar rest then
        let (second, rest) ← readPipeline documents fuel (rest.tail.dropWhile isNewline)
        return (pipe first second, rest)
      else return (first, rest)

/-- A command with a keyword, a group, a definition or a simple command. -/
def readCommand (documents : List Word) : Nat → List ShellToken →
    Except ScriptFault (Command × List ShellToken)
  | 0, tokens => tooDeep tokens
  | fuel + 1, tokens =>
    match tokens with
    | ⟨.operator .opening, _⟩ :: rest => do
      let (body, rest) ← readList documents fuel false rest
      let rest ← expectOperator .closing rest
      let (redirects, rest) ← readRedirects documents rest.length rest
      return (isolate body redirects, rest)
    | ⟨.word word, _⟩ :: rest =>
      match (word.bare?).map String.ofList with
      | some "if" => do
        let (body, rest) ← readBranch documents fuel rest
        withRedirects documents body rest
      | some "while" => do
        let (body, rest) ← readLoop documents fuel false rest
        withRedirects documents body rest
      | some "until" => do
        let (body, rest) ← readLoop documents fuel true rest
        withRedirects documents body rest
      | some "for" => do
        let (body, rest) ← readEach documents fuel rest
        withRedirects documents body rest
      | some "case" => do
        let (body, rest) ← readCase documents fuel rest
        withRedirects documents body rest
      | some "\x7b" => do
        let (body, rest) ← readList documents fuel false rest
        withRedirects documents body (← expect "\x7d" rest)
      | some name =>
        if closingWords.contains name then .error (unexpected tokens none)
        else if startsWithOperator .opening rest then do
          let rest ← expectOperator .closing rest.tail
          if !isFunctionName name.toList then
            throw ⟨(tokens.head?.map (·.line)).getD 1, "Bad function name"⟩
          let (body, rest) ← readCommand documents fuel (rest.dropWhile isNewline)
          return (define name.toList body, rest)
        else readSimple documents tokens
      | none => readSimple documents tokens
    | _ => readSimple documents tokens

/-- A condition with its branches, behind its keyword. -/
def readBranch (documents : List Word) : Nat → List ShellToken →
    Except ScriptFault (Command × List ShellToken)
  | 0, tokens => tooDeep tokens
  | fuel + 1, tokens => do
    let (condition, rest) ← readList documents fuel false tokens
    let (yes, rest) ← readList documents fuel false (← expect "then" rest)
    if startsWith "elif" rest then
      let (no, rest) ← readBranch documents fuel rest.tail
      return (branch condition yes no, rest)
    else if startsWith "else" rest then
      let (no, rest) ← readList documents fuel false rest.tail
      return (branch condition yes no, ← expect "fi" rest)
    else return (branch condition yes nothing, ← expect "fi" rest)

/-- A loop behind its keyword. -/
def readLoop (documents : List Word) : Nat → Bool → List ShellToken →
    Except ScriptFault (Command × List ShellToken)
  | 0, _, tokens => tooDeep tokens
  | fuel + 1, whileFails, tokens => do
    let (condition, rest) ← readList documents fuel false tokens
    let (body, rest) ← readList documents fuel false (← expect "do" rest)
    return (loop whileFails condition body 0, ← expect "done" rest)

/-- A loop over words behind its keyword. -/
def readEach (documents : List Word) : Nat → List ShellToken →
    Except ScriptFault (Command × List ShellToken)
  | 0, tokens => tooDeep tokens
  | fuel + 1, tokens =>
    match tokens with
    | ⟨.word word, line⟩ :: rest =>
      match word.bare? with
      | some name => do
        if !isName name then throw ⟨line, "Bad for loop variable"⟩
        let (words, rest) ←
          if startsWith "in" (rest.dropWhile isNewline) then
            wordsUpToEnd (rest.dropWhile isNewline).tail
          else pure ([[Piece.parameter ['@'] none true]], rest)
        let (body, rest) ←
          readList documents fuel false (← expect "do" (rest.dropWhile isSeparator))
        return (each name words body, ← expect "done" rest)
      | none => .error ⟨line, "Bad for loop variable"⟩
    | token :: _ => .error ⟨token.line, "Bad for loop variable"⟩
    | [] => tooDeep tokens

/-- The cases for a word, behind their keyword. -/
def readCase (documents : List Word) : Nat → List ShellToken →
    Except ScriptFault (Command × List ShellToken)
  | 0, tokens => tooDeep tokens
  | fuel + 1, tokens =>
    match tokens with
    | ⟨.word subject, _⟩ :: rest => do
      let rest ← expect "in" (rest.dropWhile isNewline)
      readCases documents fuel subject rest
    | _ => .error (unexpected tokens (some "word"))

/-- The cases that are left for a word. -/
def readCases (documents : List Word) : Nat → Word → List ShellToken →
    Except ScriptFault (Command × List ShellToken)
  | 0, _, tokens => tooDeep tokens
  | fuel + 1, subject, tokens =>
    let tokens := tokens.dropWhile isNewline
    if startsWith "esac" tokens then .ok (nothing, tokens.tail)
    else do
      let tokens := if startsWithOperator .opening tokens then tokens.tail else tokens
      let (patterns, rest) ← readPatterns tokens
      let (body, rest) ← readList documents fuel true rest
      if startsWithOperator .caseEnd rest then
        let (others, rest) ← readCases documents fuel subject rest.tail
        return (cases subject patterns body others, rest)
      else if startsWith "esac" rest then
        return (cases subject patterns body nothing, rest.tail)
      else throw (unexpected rest (some ShellOperator.caseEnd.name))

end

/-- The commands of a line. -/
def readLine (documents : List Word) : Nat → List ShellToken →
    Except ScriptFault (Command × List ShellToken)
  | 0, tokens => tooDeep tokens
  | fuel + 1, tokens => do
    let (first, rest) ← readConditional documents fuel tokens
    match rest with
    | [] => return (first, [])
    | token :: more =>
      let endsHere (tokens : List ShellToken) : Bool :=
        (tokens.head?.map fun token => isNewline token || token.kind == .finish).getD true
      let separates := token.isOperator .ampersand || token.isOperator .semicolon
      let first := if token.isOperator .ampersand then background first else first
      if separates then
        if endsHere more then return (first, more)
        else
          let (second, rest) ← readLine documents fuel more
          return (sequence first second, rest)
      else if endsHere rest then return (first, rest)
      else throw (unexpected rest none)

/-- The commands of a script line by line, up to a fault. -/
def readLines (documents : List Word) : Nat → List ShellToken → Command × Option ScriptFault
  | 0, _ => (nothing, none)
  | fuel + 1, tokens =>
    let tokens := tokens.dropWhile isNewline
    match tokens with
    | [] => (nothing, none)
    | token :: _ =>
      if token.kind = .finish then (nothing, none)
      else
        match readLine documents (4 * tokens.length + 8) tokens with
        | .error fault => (nothing, some fault)
        | .ok (first, rest) =>
          let (more, fault) := readLines documents fuel rest
          (sequence first more, fault)

/-- The command that a script stands for, as far as it is understood, and why it is not understood
any further. -/
def parse (script : Text) : Command × Option ScriptFault :=
  let (tokens, documents) := shellTokens script
  readLines documents (tokens.length + 1) tokens

/-- The redirections of a command as a whole. -/
def redirects : Command → List Redirect
  | simple _ _ redirects _ => redirects
  | group _ redirects => redirects
  | isolate _ redirects => redirects
  | _ => []

/-- The empty script does nothing. -/
@[simp]
theorem parse_nil : parse [] = (nothing, none) :=
  rfl

end Command

end ScratchEditor

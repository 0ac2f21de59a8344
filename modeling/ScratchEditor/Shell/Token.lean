import ScratchEditor.Shell.Word

/-!
# Tokens of shell scripts

A script is cut into words and operators.  The body of a document that an
operator `<<` announces begins on the next line.  A script that ends inside
quotes or brackets has a fault at its end, which does not keep the lines before
it from being run.

Main definitions:

- `ShellToken` with its line.
- `shellTokens`: the tokens of a script and the bodies of its documents.
-/

namespace ScratchEditor

/-- What separates commands. -/
inductive ShellOperator
  | semicolon
  /-- Two semicolons, which end a case. -/
  | caseEnd
  | ampersand
  | andIf
  | orIf
  | bar
  | newline
  | opening
  | closing
deriving DecidableEq

/-- How messages name an operator. -/
def ShellOperator.name : ShellOperator → String
  | .semicolon => "\";\""
  | .caseEnd => "\";;\""
  | .ampersand => "\"&\""
  | .andIf => "\"&&\""
  | .orIf => "\"||\""
  | .bar => "\"|\""
  | .newline => "newline"
  | .opening => "\"(\""
  | .closing => "\")\""

/-- How a redirection opens its target. -/
inductive RedirectKind
  | read
  | write
  | append
  | copy
  | document
deriving DecidableEq

/-- What a token is. -/
inductive ShellTokenKind
  | word (word : Word)
  | operator (operator : ShellOperator)
  /-- A redirection of a descriptor. -/
  | redirect (descriptor : Nat) (kind : RedirectKind)
  /-- The place of a document, by the order of documents in the script. -/
  | document (number : Nat)
  /-- The script ends where it must not. -/
  | fault (words : String)
  | finish
deriving DecidableEq

/-- A token and the number of its line. -/
structure ShellToken where
  kind : ShellTokenKind
  line : Nat
deriving DecidableEq

namespace ShellLexer

/-! ## Documents -/

/-- A document that was announced and not yet read. -/
structure PendingDocument where
  closing : Text
  /-- Whether references in the body are left alone. -/
  literal : Bool
  /-- Whether tabulators at the beginning of lines are dropped. -/
  dropsTabs : Bool

/-- The lines of a document up to its closing line, and what follows that. -/
def documentBody (pending : PendingDocument) : Nat → Text → Text × Text
  | 0, text => ([], text)
  | _ + 1, [] => ([], [])
  | fuel + 1, text =>
    let line := text.takeWhile (· != '\n')
    let behind := text.drop line.length
    let line := if pending.dropsTabs then line.dropWhile (· == '\t') else line
    if line = pending.closing then ([], behind.drop 1)
    else
      let (body, rest) := documentBody pending fuel (behind.drop 1)
      (line ++ behind.take 1 ++ body, rest)

/-- The bodies of the documents announced on a line, and what follows them. -/
def readDocuments : List PendingDocument → Text → List Word × Text
  | [], text => ([], text)
  | pending :: more, text =>
    let (body, rest) := documentBody pending (text.length + 1) text
    let word := if pending.literal then [Piece.plain body true] else Word.ofQuoted .stays body
    let (words, rest) := readDocuments more rest
    (word :: words, rest)

/-! ## Tokens -/

/-- An operator at the beginning of a text, and what follows it. -/
def operator? : Text → Option (ShellOperator × Text)
  | '&' :: '&' :: rest => some (.andIf, rest)
  | '|' :: '|' :: rest => some (.orIf, rest)
  | '&' :: rest => some (.ampersand, rest)
  | '|' :: rest => some (.bar, rest)
  | ';' :: ';' :: rest => some (.caseEnd, rest)
  | ';' :: rest => some (.semicolon, rest)
  | '(' :: rest => some (.opening, rest)
  | ')' :: rest => some (.closing, rest)
  | _ => none

/-- A redirection at the beginning of a text, and what follows it. -/
def redirect? : Text → Option (RedirectKind × Text)
  | '>' :: '>' :: rest => some (.append, rest)
  | '>' :: '&' :: rest => some (.copy, rest)
  | '>' :: '|' :: rest => some (.write, rest)
  | '>' :: rest => some (.write, rest)
  | '<' :: '<' :: rest => some (.document, rest)
  | '<' :: '&' :: rest => some (.copy, rest)
  | '<' :: rest => some (.read, rest)
  | _ => none

/-- A descriptor before a redirection, and the redirection. -/
def numbered? : Text → Option (Nat × Text)
  | d :: '>' :: rest => if d.isDigit then some (d.toNat - '0'.toNat, '>' :: rest) else none
  | d :: '<' :: rest => if d.isDigit then some (d.toNat - '0'.toNat, '<' :: rest) else none
  | _ => none

/-- The descriptor that a redirection without a number is for. -/
def defaultDescriptor (text : Text) : Nat :=
  if text.head? = some '<' then 0 else 1

/-- The blanks between words. -/
def isGap (c : Char) : Bool :=
  c == ' ' || c == '\t'

/-- The tokens from a place on, with the documents read so far and those announced; `height` is the
number of line ends in the whole script. -/
def readTokens (height : Nat) : Nat → List Word → List PendingDocument → Text →
    List ShellToken × List Word
  | 0, documents, _, _ => ([⟨.fault Unclosed.quotes.words, height + 1⟩], documents)
  | fuel + 1, documents, pending, text =>
    let text := text.dropWhile isGap
    let line := height + 1 - text.count '\n'
    let followedBy (kind : ShellTokenKind) (part : List ShellToken × List Word) :
        List ShellToken × List Word := (⟨kind, line⟩ :: part.1, part.2)
    match text with
    | [] => ([⟨.finish, line⟩], documents ++ (readDocuments pending []).1)
    | '\\' :: '\n' :: rest => readTokens height fuel documents pending rest
    | '#' :: rest => readTokens height fuel documents pending (rest.dropWhile (· != '\n'))
    | '\n' :: rest =>
      let (more, rest) := readDocuments pending rest
      followedBy (.operator .newline) (readTokens height fuel (documents ++ more) [] rest)
    | text =>
      match operator? text with
      | some (operator, rest) =>
        followedBy (.operator operator) (readTokens height fuel documents pending rest)
      | none =>
        let (descriptor, behind) := (numbered? text).getD (defaultDescriptor text, text)
        match redirect? behind with
        | some (.document, rest) =>
          let dropsTabs := rest.head? = some '-'
          let rest := (if dropsTabs then rest.drop 1 else rest).dropWhile isGap
          match readWord false (rest.length + 1) rest with
          | .error fault => ([⟨.fault fault.words, height + 1⟩], documents)
          | .ok (closing, rest) =>
            let (closing, literal) := literalOf closing
            let number := documents.length + pending.length
            followedBy (.redirect descriptor .document) (followedBy (.document number)
              (readTokens height fuel documents (pending ++ [⟨closing, literal, dropsTabs⟩]) rest))
        | some (kind, rest) =>
          followedBy (.redirect descriptor kind) (readTokens height fuel documents pending rest)
        | none =>
          match readWord false (text.length + 1) text with
          | .error fault => ([⟨.fault fault.words, height + 1⟩], documents)
          | .ok (word, rest) =>
            followedBy (.word word) (readTokens height fuel documents pending rest)

end ShellLexer

/-- The tokens of a script and the bodies of its documents. -/
def shellTokens (script : Text) : List ShellToken × List Word :=
  ShellLexer.readTokens (script.count '\n') (2 * script.length + 2) [] [] script

namespace ShellToken

/-- The word of a token. -/
def word? (token : ShellToken) : Option Word :=
  match token.kind with
  | .word word => some word
  | _ => none

/-- Whether a token is a given bare word. -/
def isWord (token : ShellToken) (text : String) : Bool :=
  token.word?.bind Word.bare? == some text.toList

/-- Whether a token is a given operator. -/
def isOperator (token : ShellToken) (operator : ShellOperator) : Bool :=
  token.kind == .operator operator

end ShellToken

/-- The empty script has only an end. -/
@[simp]
theorem shellTokens_nil : shellTokens [] = ([⟨.finish, 1⟩], []) :=
  rfl

end ScratchEditor

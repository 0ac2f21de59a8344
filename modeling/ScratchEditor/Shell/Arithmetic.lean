import ScratchEditor.Text.Hexadecimal
import ScratchEditor.Text.Decimal
import ScratchEditor.Shell.Word

/-!
# Arithmetic of shell scripts

Expressions over integers of 64 bits.  A name stands for the number that its
variable holds, an assignment changes the variable, and division by zero has no
value.

Main definitions:

- `Arithmetic`: an expression, with `Arithmetic.parse?`.
- `Arithmetic.value?`: its value and the variables afterwards.
-/

namespace ScratchEditor

/-- The values of variables, the latest first. -/
abbrev Variables :=
  List (Text × Text)

/-- The value of a variable. -/
def Variables.value? (bindings : Variables) (name : Text) : Option Text :=
  (bindings.find? (·.1 == name)).map (·.2)

/-- The variables with one of them set. -/
def Variables.set (bindings : Variables) (name value : Text) : Variables :=
  (name, value) :: bindings.filter (·.1 != name)

/-- The variables without one of them. -/
def Variables.unset (bindings : Variables) (name : Text) : Variables :=
  bindings.filter (·.1 != name)

/-- What joins two numbers. -/
inductive ArithmeticOperator
  | either
  | both
  | bitOr
  | bitXor
  | bitAnd
  | equal
  | different
  | lessOrEqual
  | less
  | greaterOrEqual
  | greater
  | shiftLeft
  | shiftRight
  | plus
  | minus
  | times
  | divide
  | remainder
deriving DecidableEq

/-- An expression. -/
inductive Arithmetic
  | number (value : Int)
  | named (name : Text)
  | negative (operand : Arithmetic)
  | complement (operand : Arithmetic)
  | negation (operand : Arithmetic)
  | binary (operator : ArithmeticOperator) (left right : Arithmetic)
  | choice (condition yes no : Arithmetic)
  /-- Sets a variable to a value, or to its own value joined with one. -/
  | assign (name : Text) (operator : Option ArithmeticOperator) (value : Arithmetic)

namespace Arithmetic

/-! ## Words of an expression -/

/-- The texts of operators with how tightly they bind; longer texts come first. -/
def operators : List (Text × Nat × ArithmeticOperator) :=
  [("||", 1, .either), ("&&", 2, .both), ("==", 6, .equal), ("!=", 6, .different),
    ("<<", 8, .shiftLeft), (">>", 8, .shiftRight), ("<=", 7, .lessOrEqual),
    (">=", 7, .greaterOrEqual), ("<", 7, .less), (">", 7, .greater), ("|", 3, .bitOr),
    ("^", 4, .bitXor), ("&", 5, .bitAnd), ("+", 9, .plus), ("-", 9, .minus), ("*", 10, .times),
    ("/", 10, .divide), ("%", 10, .remainder)].map fun (text, rest) => (String.toList text, rest)

/-- The tightest binding of a binary operator. -/
def tightest : Nat :=
  10

/-- The operators that an equals sign behind them turns into assignments. -/
def mayAssign (operator : ArithmeticOperator) : Bool :=
  [.bitOr, .bitXor, .bitAnd, .shiftLeft, .shiftRight, .plus, .minus, .times, .divide,
    .remainder].contains operator

/-- Whether a character stands between the parts of an expression. -/
def isGap (c : Char) : Bool :=
  c == ' ' || c == '\t' || c == '\n'

/-- An operator at the beginning of a text; an equals sign that makes an assignment is not its. -/
def operator? (text : Text) : Option (Nat × ArithmeticOperator × Text) :=
  match operators.find? fun entry => entry.1.isPrefixOf text with
  | none => none
  | some (name, level, operator) =>
    let rest := text.drop name.length
    if mayAssign operator && rest.head? == some '=' then none else some (level, operator, rest)

/-- An assignment at the beginning of a text. -/
def assignment? (text : Text) : Option (Option ArithmeticOperator × Text) :=
  match text with
  | '=' :: '=' :: _ => none
  | '=' :: rest => some (none, rest)
  | _ =>
    match operators.find? fun entry => entry.1.isPrefixOf text && mayAssign entry.2.2 with
    | none => none
    | some (name, _, operator) =>
      match text.drop name.length with
      | '=' :: rest => some (some operator, rest)
      | _ => none

/-- The value of digits in a base, if all of them are digits of it. -/
def valueIn? (base : Nat) (digits : Text) : Option Nat :=
  digits.foldlM
    (fun value c => do
      let digit ← hexValue? c
      if digit < base then some (value * base + digit) else none)
    0

/-- The value of a number in decimal, octal or hexadecimal digits. -/
def constant? : Text → Option Int
  | [] => none
  | ['0'] => some 0
  | '0' :: 'x' :: digits => (valueIn? 16 digits).map Int.ofNat
  | '0' :: 'X' :: digits => (valueIn? 16 digits).map Int.ofNat
  | '0' :: digits => (valueIn? 8 digits).map Int.ofNat
  | digits => (valueIn? 10 digits).map Int.ofNat

/-! ## Reading -/

mutual

/-- An assignment, a choice or a sum. -/
def readWhole : Nat → Text → Option (Arithmetic × Text)
  | 0, _ => none
  | fuel + 1, text =>
    let text := text.dropWhile isGap
    let name := if (text.head?.map ShellLexer.isNameStart).getD false then
      text.takeWhile ShellLexer.isNameChar else []
    let behind := (text.drop name.length).dropWhile isGap
    match if name.isEmpty then none else assignment? behind with
    | some (operator, rest) =>
      (readWhole fuel rest).map fun part => (assign name operator part.1, part.2)
    | none => do
      let (condition, rest) ← readLevel fuel 1 text
      match rest.dropWhile isGap with
      | '?' :: rest =>
        let (yes, rest) ← readWhole fuel rest
        match rest.dropWhile isGap with
        | ':' :: rest => (readWhole fuel rest).map fun part => (choice condition yes part.1, part.2)
        | _ => none
      | rest => some (condition, rest)

/-- Operands joined by operators that bind at least as tightly as a level. -/
def readLevel : Nat → Nat → Text → Option (Arithmetic × Text)
  | 0, _, _ => none
  | fuel + 1, level, text => do
    let (left, rest) ←
      if tightest < level then readOperand fuel (text.dropWhile isGap)
      else readLevel fuel (level + 1) text
    readMore fuel level left rest

/-- What is joined to an operand by operators of a level. -/
def readMore : Nat → Nat → Arithmetic → Text → Option (Arithmetic × Text)
  | 0, _, _, _ => none
  | fuel + 1, level, left, text =>
    let text := text.dropWhile isGap
    match operator? text with
    | some (found, operator, rest) =>
      if found = level then do
        let (right, rest) ← readLevel fuel (level + 1) rest
        readMore fuel level (binary operator left right) rest
      else some (left, text)
    | none => some (left, text)

/-- A number, a name, an expression in parentheses, or one of these with a sign. -/
def readOperand : Nat → Text → Option (Arithmetic × Text)
  | 0, _ => none
  | fuel + 1, text =>
    match text with
    | '-' :: rest =>
      (readOperand fuel (rest.dropWhile isGap)).map fun part => (negative part.1, part.2)
    | '+' :: rest => readOperand fuel (rest.dropWhile isGap)
    | '~' :: rest =>
      (readOperand fuel (rest.dropWhile isGap)).map fun part => (complement part.1, part.2)
    | '!' :: rest =>
      (readOperand fuel (rest.dropWhile isGap)).map fun part => (negation part.1, part.2)
    | '(' :: rest => do
      let (inside, rest) ← readWhole fuel rest
      match rest.dropWhile isGap with
      | ')' :: rest => return (inside, rest)
      | _ => none
    | c :: _ =>
      let word := text.takeWhile ShellLexer.isNameChar
      let rest := text.drop word.length
      if ShellLexer.isNameStart c then some (named word, rest)
      else (constant? word).map fun value => (number value, rest)
    | [] => none

end

/-- The expression that a text stands for; a text without one stands for zero. -/
def parse? (text : Text) : Option Arithmetic :=
  if text.all isGap then some (number 0)
  else do
    let (expression, rest) ← readWhole (16 * text.length + 16) text
    if rest.all isGap then return expression else none

/-! ## Values -/

/-- The integer of 64 bits with a sign that stands for a number. -/
def wrap (value : Int) : Int :=
  value.bmod countLimit

/-- The number of a truth value. -/
def ofBool (b : Bool) : Int :=
  if b then 1 else 0

/-- The 64 bits of a number. -/
def bits (value : Int) : Nat :=
  (value % Int.ofNat countLimit).toNat

/-- Two numbers joined by an operator. -/
def join? (operator : ArithmeticOperator) (a b : Int) : Option Int :=
  match operator with
  | .either => some (ofBool (a != 0 || b != 0))
  | .both => some (ofBool (a != 0 && b != 0))
  | .bitOr => some (wrap (Int.ofNat (bits a ||| bits b)))
  | .bitXor => some (wrap (Int.ofNat (bits a ^^^ bits b)))
  | .bitAnd => some (wrap (Int.ofNat (bits a &&& bits b)))
  | .equal => some (ofBool (a == b))
  | .different => some (ofBool (a != b))
  | .lessOrEqual => some (ofBool (a ≤ b))
  | .less => some (ofBool (a < b))
  | .greaterOrEqual => some (ofBool (b ≤ a))
  | .greater => some (ofBool (b < a))
  | .shiftLeft => some (wrap (a * Int.ofNat (1 <<< (bits b % 64))))
  | .shiftRight => some (a.fdiv (Int.ofNat (1 <<< (bits b % 64))))
  | .plus => some (wrap (a + b))
  | .minus => some (wrap (a - b))
  | .times => some (wrap (a * b))
  | .divide => if b = 0 then none else some (wrap (a.tdiv b))
  | .remainder => if b = 0 then none else some (a.tmod b)

/-- The number that a variable holds; an unset or empty one holds zero. -/
def held? (bindings : Variables) (name : Text) : Option Int :=
  match (bindings.value? name).getD [] with
  | [] => some 0
  | '-' :: digits => (constant? digits).map (wrap <| -·)
  | digits => (constant? digits).map wrap

/-- The value of an expression and the variables afterwards. -/
def value? (bindings : Variables) : Arithmetic → Option (Int × Variables)
  | number value => some (wrap value, bindings)
  | named name => (held? bindings name).map (·, bindings)
  | negative operand => do
    let (a, bindings) ← value? bindings operand
    return (wrap (-a), bindings)
  | complement operand => do
    let (a, bindings) ← value? bindings operand
    return (-a - 1, bindings)
  | negation operand => do
    let (a, bindings) ← value? bindings operand
    return (ofBool (a == 0), bindings)
  | binary operator left right => do
    let (a, bindings) ← value? bindings left
    if operator = .either ∧ a ≠ 0 then return (1, bindings)
    else if operator = .both ∧ a = 0 then return (0, bindings)
    else
      let (b, bindings) ← value? bindings right
      return (← join? operator a b, bindings)
  | choice condition yes no => do
    let (a, bindings) ← value? bindings condition
    if a ≠ 0 then value? bindings yes else value? bindings no
  | assign name operator value => do
    let (b, bindings) ← value? bindings value
    let result ←
      match operator with
      | none => some b
      | some operator => do join? operator (← held? bindings name) b
    return (result, bindings.set name (decimalInt result))

/-- A number is its own value as far as 64 bits hold it. -/
theorem value?_number (bindings : Variables) (value : Int) :
    value? bindings (number value) = some (wrap value, bindings) :=
  rfl

end Arithmetic

end ScratchEditor

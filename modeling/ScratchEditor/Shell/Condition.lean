import ScratchEditor.Files.Tree
import ScratchEditor.Shell.Arithmetic

/-!
# Conditions of shell scripts

A condition compares texts and numbers, asks about files, and joins conditions.

Main definitions:

- `ConditionFault`: why words make no condition.
- `Condition.holds`: whether a condition holds, if its words make one.
-/

namespace ScratchEditor

/-- Why words make no condition. -/
inductive ConditionFault
  | illegalNumber (word : Text)
  | unexpectedOperator (word : Text)
  | missingArgument (word : Text)
deriving DecidableEq

/-- How a fault is worded. -/
def ConditionFault.message : ConditionFault → Text
  | .illegalNumber word => "Illegal number: ".toList ++ word
  | .unexpectedOperator word => word ++ ": unexpected operator".toList
  | .missingArgument word => word ++ ": argument expected".toList

namespace Condition

/-- The integer of at least one decimal digit. -/
def decimalInteger? (digits : Text) : Option Int :=
  if digits.isEmpty then none else (Arithmetic.valueIn? 10 digits).map Int.ofNat

/-- The integer that a word stands for; blanks around it do not matter. -/
def integer (word : Text) : Except ConditionFault Int :=
  let inner := ((word.dropWhile (· == ' ')).reverse.dropWhile (· == ' ')).reverse
  let value :=
    match inner with
    | '-' :: digits => (decimalInteger? digits).map (-·)
    | '+' :: digits => decimalInteger? digits
    | digits => decimalInteger? digits
  match value with
  | some n => .ok n
  | none => .error (.illegalNumber word)

/-- Compares two texts. -/
def compareTexts? (operator : String) (a b : Text) : Option Bool :=
  match operator with
  | "=" => some (a == b)
  | "!=" => some (a != b)
  | "<" => some (a < b)
  | ">" => some (b < a)
  | _ => none

/-- Compares two numbers. -/
def compareNumbers? (operator : String) : Option (Int → Int → Bool) :=
  match operator with
  | "-eq" => some fun a b => a == b
  | "-ne" => some fun a b => a != b
  | "-lt" => some fun a b => a < b
  | "-le" => some fun a b => a ≤ b
  | "-gt" => some fun a b => b < a
  | "-ge" => some fun a b => b ≤ a
  | _ => none

/-- Compares two words. -/
def compare (operator a b : Text) : Except ConditionFault Bool := do
  match compareTexts? (String.ofList operator) a b with
  | some answer => return answer
  | none =>
    match compareNumbers? (String.ofList operator) with
    | some holds => return holds (← integer a) (← integer b)
    | none => throw (.unexpectedOperator operator)

/-- Whether a word is an operator between two words. -/
def isBinary (word : Text) : Bool :=
  (compareTexts? (String.ofList word) [] []).isSome ||
    (compareNumbers? (String.ofList word)).isSome

/-- Asks about a file. -/
def ofEntry? (operator : String) (entry : Option FileEntry) : Option Bool :=
  match operator with
  | "-e" => some entry.isSome
  | "-r" => some entry.isSome
  | "-w" => some entry.isSome
  | "-f" =>
    some (match entry with
      | some (.file _ _) => true
      | some (.program _) => true
      | _ => false)
  | "-d" => some (entry == some .directory)
  | "-c" => some (entry == some .void)
  | "-x" =>
    some (match entry with
      | some .directory => true
      | some (.file _ runnable) => runnable
      | some (.program _) => true
      | _ => false)
  | "-s" =>
    some (match entry with
      | some (.file bytes _) => !bytes.isEmpty
      | some (.program _) => true
      | some .directory => true
      | _ => false)
  | "-L" => some false
  | "-h" => some false
  | "-p" => some false
  | "-S" => some false
  | "-b" => some false
  | _ => none

/-- Asks about a word. -/
def unary? (files : FileTree) (working : TreePath) (operator word : Text) : Option Bool :=
  match String.ofList operator with
  | "-n" => some !word.isEmpty
  | "-z" => some word.isEmpty
  | "-t" => some false
  | operator => ofEntry? operator (files.entryAt working word).toOption

mutual

/-- Conditions of which one has to hold. -/
def either (files : FileTree) (working : TreePath) :
    Nat → List Text → Except ConditionFault (Bool × List Text)
  | 0, words => .error (.unexpectedOperator (words.head?.getD []))
  | fuel + 1, words => do
    let (first, rest) ← both files working fuel words
    match rest with
    | ['-', 'o'] :: rest =>
      let (second, rest) ← either files working fuel rest
      return (first || second, rest)
    | _ => return (first, rest)

/-- Conditions that all have to hold. -/
def both (files : FileTree) (working : TreePath) :
    Nat → List Text → Except ConditionFault (Bool × List Text)
  | 0, words => .error (.unexpectedOperator (words.head?.getD []))
  | fuel + 1, words => do
    let (first, rest) ← single files working fuel words
    match rest with
    | ['-', 'a'] :: rest =>
      let (second, rest) ← both files working fuel rest
      return (first && second, rest)
    | _ => return (first, rest)

/-- A condition that is not joined, which may be negated or in parentheses. -/
def single (files : FileTree) (working : TreePath) :
    Nat → List Text → Except ConditionFault (Bool × List Text)
  | 0, words => .error (.unexpectedOperator (words.head?.getD []))
  | fuel + 1, words =>
    match words with
    | [] => .error (.missingArgument [])
    | [word] => .ok (!word.isEmpty, [])
    | first :: second :: rest =>
      match rest with
      | third :: more =>
        if isBinary second then do return (← compare second first third, more)
        else if first = ['!'] then do
          let (answer, rest) ← single files working fuel (second :: rest)
          return (!answer, rest)
        else if first = ['('] then do
          let (inside, rest) ← either files working fuel (second :: rest)
          match rest with
          | [')'] :: rest => return (inside, rest)
          | _ => throw (.missingArgument [')'])
        else
          match unary? files working first second with
          | some answer => .ok (answer, rest)
          | none => .ok (!first.isEmpty, second :: rest)
      | [] =>
        if first = ['!'] then .ok (second.isEmpty, [])
        else
          match unary? files working first second with
          | some answer => .ok (answer, [])
          | none =>
            if isBinary second then .error (.missingArgument second)
            else .error (.unexpectedOperator first)

end

/-- Whether a condition holds, if its words make one; no words make one that does not. -/
def holds (files : FileTree) (working : TreePath) (words : List Text) :
    Except ConditionFault Bool :=
  if words.isEmpty then .ok false
  else
    match either files working (3 * words.length + 3) words with
    | .ok (answer, []) => .ok answer
    | .ok (_, rest) =>
      .error (.unexpectedOperator (words[words.length - rest.length - 1]?.getD []))
    | .error fault => .error fault

@[simp]
theorem holds_nil (files : FileTree) (working : TreePath) : holds files working [] = .ok false :=
  rfl

end Condition

end ScratchEditor

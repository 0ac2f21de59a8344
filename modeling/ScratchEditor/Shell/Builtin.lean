import ScratchEditor.Shell.Condition
import ScratchEditor.Shell.Expansion
import ScratchEditor.Shell.Printing
import ScratchEditor.Shell.Signal

/-!
# Commands that the shell provides

These commands change the state of the shell or write something, and run no
other command.

Main definitions:

- `Shell.builtin?`: a command by its name.
-/

namespace ScratchEditor

namespace Shell

/-! ## Writing -/

/-- Writes what a command prints; a closed output makes it fail. -/
def print (shell : Shell) (command : String) (bytes : Bytes) : Shell :=
  if shell.isOpen 1 || bytes.isEmpty then (shell.send 1 bytes).withStatus 0
  else shell.fail 1 (command.toList ++ ": I/O error".toList)

/-- Prints texts in a line. -/
def echo (shell : Shell) (arguments : List Text) : Shell :=
  shell.print "echo" (Printing.echo arguments)

/-- Prints values in a format. -/
def printf (shell : Shell) (arguments : List Text) : Shell :=
  let arguments := if arguments.head? = some "--".toList then arguments.tail else arguments
  match arguments with
  | [] => shell.fail 2 "usage: printf format [arg ...]".toList
  | pattern :: values =>
    let (bytes, refused, fault) := Printing.format pattern values
    let printed := shell.print "printf" bytes
    let warned := refused.foldl
      (fun shell (value, fault) =>
        shell.fail 1 (value ++ ": ".toList ++ fault.words.toList))
      printed
    match fault with
    | some directive => warned.fail 2 (directive ++ ": invalid directive".toList)
    | none => warned

/-- Says what a program has to say about itself. -/
def programFails (shell : Shell) (what : Text) : Shell :=
  (shell.sendText 2 (what ++ ['\n'])).withStatus 1

/-- Prints a file, or the rest of the input; `called` is how the program was called. -/
def printFile (called : Text) (shell : Shell) (name : Text) : Shell :=
  if name = ['-'] then { shell.send 1 shell.input with input := [] }
  else
    match shell.files.read shell.working name with
    | .ok bytes => shell.send 1 bytes
    | .error error =>
      shell.programFails (called ++ ": ".toList ++ name ++ ": ".toList ++ error.words.toList)

/-- Prints files one after the other; output needs no buffer, so the option against it changes
nothing. -/
def cat (shell : Shell) (called : Text) (arguments : List Text) : Shell :=
  let names := arguments.filter fun text => text != ['-', 'u'] && text != ['-', '-']
  let names := if names.isEmpty then [['-']] else names
  names.foldl (printFile called) (shell.withStatus 0)

/-! ## Time -/

/-- The milliseconds in a unit of time. -/
def unitMillis? : Text → Option Nat
  | [] => some 1000
  | ['s'] => some 1000
  | ['m'] => some 60000
  | ['h'] => some 3600000
  | ['d'] => some 86400000
  | _ => none

/-- The milliseconds that a text stands for: a decimal number and a unit. -/
def millis? (text : Text) : Option Nat :=
  let whole := text.takeWhile Char.isDigit
  let rest := text.drop whole.length
  let fraction :=
    match rest with
    | '.' :: more => more.takeWhile Char.isDigit
    | _ => []
  let rest := if rest.head? = some '.' then rest.drop (fraction.length + 1) else rest
  if whole.isEmpty && fraction.isEmpty then none
  else do
    let unit ← unitMillis? rest
    let digits ← Arithmetic.valueIn? 10 (whole ++ fraction)
    return digits * unit / Nat.pow 10 fraction.length

/-- What is wrong with an option of a program that takes none. -/
def unknownOption? (text : Text) : Option Text :=
  match text with
  | ['-', '-'] => none
  | '-' :: '-' :: _ => some ("unrecognized option '".toList ++ text ++ ['\''])
  | '-' :: letter :: _ => some ("invalid option -- '".toList ++ [letter, '\''])
  | _ => none

/-- Waits for the sum of some times; `called` is how the program was called. -/
def sleep (shell : Shell) (called : Text) (arguments : List Text) : Shell :=
  let hint := "\nTry '".toList ++ called ++ " --help' for more information.".toList
  let refuse (what : Text) : Shell := shell.programFails (called ++ ": ".toList ++ what ++ hint)
  let options := arguments.takeWhile (· != "--".toList)
  let arguments := options ++ arguments.drop (options.length + 1)
  if let some what := options.findSome? unknownOption? then refuse what
  else if arguments.isEmpty then refuse "missing operand".toList
  else if arguments.any fun text => text == "infinity".toList || text == "inf".toList then
    shell.hang
  else
    match arguments.find? fun text => (millis? text).isNone with
    | some text => refuse ("invalid time interval '".toList ++ text ++ ['\''])
    | none =>
      let time := (arguments.filterMap millis?).foldl (· + ·) 0
      (shell.advanceTo (shell.clock + time)).withStatus 0

/-- Waits until a job has ended. -/
def waitForJob (shell : Shell) (job : Job) : Shell :=
  if shell.isOn then
    match job.stop with
    | some stop => (shell.advanceTo stop).withStatus job.status
    | none => shell.hang
  else shell

/-- Says that a signal ended a job. -/
def reportEnd (shell : Shell) (job : Job) : Shell :=
  if shell.isOn && 128 < job.status then shell.reportSignal (job.status - 128) else shell

/-- The job of a process. -/
def jobOf? (shell : Shell) (process : Text) : Option Job :=
  shell.jobs.find? fun job => decimal (jobProcess job.number) == process

/-- Waits for all jobs, or for those of some processes. -/
def wait (shell : Shell) (arguments : List Text) : Shell :=
  if arguments.isEmpty then
    let own := shell.jobs.filter (shell.job < ·.number)
    let waited := own.foldl waitForJob shell
    if waited.isOn then waited.withStatus 0 else waited
  else
    arguments.foldl
      (fun shell process =>
        match shell.jobOf? process with
        | some job => (shell.waitForJob job).reportEnd job
        | none => shell.withStatus 127)
      shell

/-! ## Variables -/

/-- The name and the value of an assignment in one text. -/
def splitAssignment (text : Text) : Text × Option Text :=
  let name := text.takeWhile (· != '=')
  match text.drop name.length with
  | '=' :: value => (name, some value)
  | _ => (name, none)

/-- Sets a variable if a value is given. -/
def assignGiven (shell : Shell) (text : Text) : Shell :=
  match splitAssignment text with
  | (name, some value) => shell.assign name value
  | (_, none) => shell

/-- Gives variables to a function that runs, as far as it has none of these names. -/
def makeLocal (shell : Shell) (arguments : List Text) : Shell :=
  match shell.frames with
  | [] => shell.abort 2 "not in a function".toList
  | frame :: outer =>
    let names := arguments.map fun text => (splitAssignment text).1
    let fresh := names.filter fun name => !frame.any (·.1 == name)
    let frame := frame ++ fresh.map fun name => (name, shell.bindings.value? name)
    (arguments.foldl assignGiven { shell with frames := frame :: outer }).withStatus 0

/-- Makes variables keep their values. -/
def makeConstant (shell : Shell) (arguments : List Text) : Shell :=
  let assigned := arguments.foldl assignGiven shell
  let names := arguments.map fun text => (splitAssignment text).1
  if assigned.isOn then { assigned with constants := names ++ assigned.constants, status := 0 }
  else assigned

/-- Hands variables on to programs. -/
def exportAll (shell : Shell) (arguments : List Text) : Shell :=
  let shell := arguments.foldl assignGiven shell
  { shell with
    exported := arguments.map (fun text => (splitAssignment text).1) ++ shell.exported
    status := 0 }

/-- Forgets variables or functions. -/
def unset (shell : Shell) (arguments : List Text) : Shell :=
  match arguments with
  | ['-', 'f'] :: names =>
    { shell with functions := shell.functions.filter (!names.contains ·.1), status := 0 }
  | _ =>
    let names := arguments.filter (· != ['-', 'v'])
    if let some name := names.find? shell.constants.contains then
      shell.abort 2 (name ++ ": is read only".toList)
    else { shell with bindings := shell.bindings.filter (!names.contains ·.1), status := 0 }

/-- Values for names: each takes what stands before a separator, and the last one the rest. -/
def assignFields (shell : Shell) : List Text → Text → Shell
  | [], _ => shell
  | [name], text =>
    let isSeparator := shell.separators.contains
    shell.assign name ((text.reverse.dropWhile isSeparator).reverse)
  | name :: more, text =>
    let isSeparator := shell.separators.contains
    let field := text.takeWhile (!isSeparator ·)
    assignFields (shell.assign name field) more
      ((text.drop field.length).dropWhile isSeparator)

/-- The line at the beginning of some bytes, what follows it, and whether the line is ended. -/
def firstLine (bytes : Bytes) : Bytes × Bytes × Bool :=
  let line := bytes.takeWhile (· != 10)
  (line, bytes.drop (line.length + 1), line.length < bytes.length)

/-- A line without the backslashes that quote its characters. -/
def unquoteLine : Text → Text
  | '\\' :: c :: rest => c :: unquoteLine rest
  | c :: rest => c :: unquoteLine rest
  | [] => []

/-- Reads a line into variables. -/
def read (shell : Shell) (arguments : List Text) : Shell :=
  let raw := arguments.contains ['-', 'r']
  let names := arguments.filter (·.head? != some '-')
  let (line, rest, ended) := firstLine shell.input
  let text := Utf8.decodeLossy line
  let text := if raw then text else unquoteLine text
  let text := text.dropWhile shell.separators.contains
  let names := if names.isEmpty then ["REPLY".toList] else names
  ({ shell with input := rest }.assignFields names text).withStatus (if ended then 0 else 1)

/-- Drops arguments at the beginning. -/
def shift (shell : Shell) (arguments : List Text) : Shell :=
  let count :=
    match readCount (arguments.head?.getD ['1']) with
    | .ok n => n
    | .error _ => 1
  if count ≤ shell.arguments.length then
    { shell with arguments := shell.arguments.drop count, status := 0 }
  else shell.abort 2 "can't shift that many".toList

/-- Turns the options of some letters on or off. -/
def setLetters (shell : Shell) (letters : Text) (on : Bool) : Shell :=
  letters.foldl
    (fun shell letter =>
      match letter with
      | 'e' => { shell with stopsOnFailure := on }
      | 'u' => { shell with stopsOnUnset := on }
      | 'x' => { shell with traces := on }
      | _ => shell)
    shell

/-- The letters of the option that has a name. -/
def optionLetters (name : Text) : Text :=
  match String.ofList name with
  | "errexit" => ['e']
  | "nounset" => ['u']
  | "xtrace" => ['x']
  | _ => []

/-- Sets options and arguments. -/
def setOptions (shell : Shell) : List Text → Shell
  | [] => shell
  | ['-', '-'] :: arguments => { shell with arguments := arguments }
  | ['-', 'o'] :: name :: rest => setOptions (shell.setLetters (optionLetters name) true) rest
  | ['+', 'o'] :: name :: rest => setOptions (shell.setLetters (optionLetters name) false) rest
  | text :: rest =>
    match text with
    | '-' :: letters => setOptions (shell.setLetters letters true) rest
    | '+' :: letters => setOptions (shell.setLetters letters false) rest
    | _ => { shell with arguments := text :: rest }

/-! ## Places -/

/-- Goes to a directory by its path. -/
def goTo (shell : Shell) (target : Text) : Shell :=
  match shell.files.locate shell.working target with
  | .ok (path, _) =>
    if shell.files.lookup? path = some .directory then
      let left := (shell.bindings.value? "PWD".toList).getD []
      let moved := { shell with working := path, status := 0 }
      (moved.assign "OLDPWD".toList left).assign "PWD".toList (FileTree.pathText path)
    else shell.fail 2 ("can't cd to ".toList ++ target)
  | .error _ => shell.fail 2 ("can't cd to ".toList ++ target)

/-- Goes to a directory; a hyphen stands for the one that was left last. -/
def changeDirectory (shell : Shell) (arguments : List Text) : Shell :=
  match arguments with
  | [] => shell.withStatus 0
  | ['-'] :: _ =>
    let target := (shell.bindings.value? "OLDPWD".toList).getD ['.']
    let moved := shell.goTo target
    if moved.status = 0 then
      moved.print "cd" (Utf8.encode (FileTree.pathText moved.working ++ ['\n']))
    else moved
  | target :: _ => if target.isEmpty then shell.withStatus 0 else shell.goTo target

/-! ## Leaving -/

/-- The number of a status, which has eight bits. -/
def statusOf? (text : Text) : Option Nat :=
  match readCount text with
  | .ok n => some (n % 256)
  | .error _ => none

/-- Leaves in a way that has a status. -/
def leaveBy (shell : Shell) (way : Nat → Flow) (arguments : List Text) : Shell :=
  match arguments with
  | [] => { shell with flow := way shell.status }
  | text :: _ =>
    match statusOf? text with
    | some status => { shell with status := status, flow := way status }
    | none => shell.abort 2 ("Illegal number: ".toList ++ text)

/-- Leaves some of the loops that are being run, if there are any. -/
def leaveLoops (shell : Shell) (way : Nat → Flow) (arguments : List Text) : Shell :=
  let levels :=
    match readCount (arguments.head?.getD ['1']) with
    | .ok n => n
    | .error _ => 1
  { shell with status := 0, flow := if shell.loops = 0 then .on else way (min levels shell.loops) }

/-- Sets what is done on signals. -/
def trap (shell : Shell) (arguments : List Text) : Shell :=
  let arguments := if arguments.head? = some "--".toList then arguments.tail else arguments
  match arguments with
  | [] => shell.withStatus 0
  | [signal] =>
    let number := Signal.number? signal
    { shell with traps := shell.traps.filter (some ·.1 != number), status := 0 }
  | action :: signals =>
    let numbers := signals.filterMap Signal.number?
    let others := shell.traps.filter (!numbers.contains ·.1)
    if action = ['-'] then { shell with traps := others, status := 0 }
    else { shell with traps := others ++ numbers.map (·, action), status := 0 }

/-- Whether words make a condition that holds. -/
def test (shell : Shell) (words : List Text) : Shell :=
  match Condition.holds shell.files shell.working words with
  | .ok answer => shell.withStatus (if answer then 0 else 1)
  | .error fault => shell.fail 2 fault.message

/-- Whether words before a closing bracket make a condition that holds. -/
def bracket (shell : Shell) (words : List Text) : Shell :=
  if words.getLast? = some [']'] then shell.test words.dropLast
  else shell.fail 2 "missing ]".toList

/-! ## The table -/

/-- What a command that runs no other command does, by its name. -/
def builtinBody? (name : String) (arguments : List Text) : Option (Shell → Shell) :=
  match name with
  | ":" => some (withStatus · 0)
  | "true" => some (withStatus · 0)
  | "false" => some (withStatus · 1)
  | "echo" => some (echo · arguments)
  | "printf" => some (printf · arguments)
  | "test" => some (test · arguments)
  | "[" => some (bracket · arguments)
  | "wait" => some (wait · arguments)
  | "export" => some (exportAll · arguments)
  | "readonly" => some (makeConstant · arguments)
  | "local" => some (makeLocal · arguments)
  | "unset" => some (unset · arguments)
  | "read" => some (read · arguments)
  | "shift" => some (shift · arguments)
  | "set" => some fun shell => (shell.setOptions arguments).withStatus 0
  | "cd" => some (changeDirectory · arguments)
  | "pwd" => some fun shell =>
    shell.print name (Utf8.encode (FileTree.pathText shell.working ++ ['\n']))
  | "exit" => some (leaveBy · Flow.leave arguments)
  | "return" => some (leaveBy · (fun _ => Flow.returns) arguments)
  | "break" => some (leaveLoops · Flow.breaks arguments)
  | "continue" => some (leaveLoops · Flow.continues arguments)
  | "trap" => some (trap · arguments)
  | "hash" => some (withStatus · 0)
  | "alias" => some (withStatus · 0)
  | "jobs" => some (withStatus · 0)
  | "ulimit" => some (withStatus · 0)
  | "umask" => some fun shell =>
    if arguments.isEmpty then shell.print name (Utf8.encode "0022\n".toList)
    else shell.withStatus 0
  | _ => none

/-- A command that runs no other command, by its name. -/
def builtin? (name : Text) (arguments : List Text) (shell : Shell) : Option Shell :=
  (builtinBody? (String.ofList name) arguments).map (shell.within name)

/-- A program that is no shell and runs no other program; `called` is how it was called. -/
def runProgram (shell : Shell) (program : Program) (called : Text) (arguments : List Text) :
    Shell :=
  match program with
  | .cat => shell.cat called arguments
  | .echo => shell.within called (print · "write" (Printing.plainEcho arguments))
  | .printf => shell.within called (printf · arguments)
  | .sleep => shell.sleep called arguments
  | .test => shell.within called (test · arguments)
  | .succeed => shell.withStatus 0
  | .fail => shell.withStatus 1
  | .shell => shell
  | .env => shell
  | .kill => shell

@[simp]
theorem status_withStatus (shell : Shell) (status : Nat) :
    (shell.withStatus status).status = status :=
  rfl

end Shell

end ScratchEditor

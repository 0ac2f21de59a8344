import ScratchEditor.Files.Launch
import ScratchEditor.Shell.Builtin

/-!
# Commands that run other commands

What these commands run is given to them as a function, so that each of them
can be read on its own.

Main definitions:

- `CommandRunner`: runs a command in a shell.
- `Shell.runText`, `Shell.substitute` and `Shell.runShell`: a script in a shell,
  in a reference, and in a process of its own.
- `Shell.redirected`: a command with redirections.
- `Shell.execute`: a command given by its words.
-/

namespace ScratchEditor

/-- Runs a command in a shell. -/
abbrev CommandRunner :=
  Command → Shell → Shell

namespace Shell

/-! ## Scripts -/

/-- Runs a script in a shell, as far as the script is understood; a fault ends the shell. -/
def runText (run : CommandRunner) (script : Text) (shell : Shell) : Shell :=
  let (command, fault) := Command.parse script
  let after := run command shell
  match fault with
  | some fault =>
    if after.isOn then
      { after with line := fault.line }.abort 2 ("Syntax error: ".toList ++ fault.words.toList)
    else after
  | none => after

/-- Does what is to be done at the end of a shell. -/
def finish (run : CommandRunner) (shell : Shell) : Shell :=
  match shell.flow with
  | .killed => shell
  | .stuck => shell
  | _ =>
    match shell.traps.find? (·.1 == 0) with
    | some (_, action) =>
      let code := shell.code
      let after := runText run action { shell with traps := [], status := code, flow := .on }
      match after.flow with
      | .on => { after with flow := .leave code }
      | _ => after
    | none => shell

/-- Runs a script for the text that it prints. -/
def substitute (run : CommandRunner) : Substitution := fun script shell =>
  let inner :=
    finish run (runText run script { shell.withSink 1 .captured with captured := [], traps := [] })
  (Utf8.decodeLossy inner.capturedBytes, shell.rejoin { inner with captured := shell.captured })

/-! ## Redirections -/

/-- Whether a redirection is one of the input. -/
def redirectsInput (redirects : List Redirect) : Bool :=
  redirects.any (·.descriptor == 0)

/-- How a failure to open a file is worded. -/
def openFailure (verb : String) (missing : String) (target : Text) (error : FileError) : Text :=
  let words := if error = .notFound then missing else error.words
  "cannot ".toList ++ verb.toList ++ ' ' :: target ++ ": ".toList ++ words.toList

/-- Leads a descriptor to a file, which is emptied unless it is to grow. -/
def redirectTo (shell : Shell) (descriptor : Nat) (target : Text) (grows : Bool) : Shell × Bool :=
  let opened : Except FileError (FileTree × TreePath) := do
    let held ←
      if grows && shell.files.has shell.working target then
        shell.files.read shell.working target
      else pure []
    let files ← shell.files.write shell.working target held
    let (path, _) ← files.locate shell.working target
    return (files, path)
  match opened with
  | .ok (files, path) =>
    let sink := if files.lookup? path = some .void then .void else .file path
    ({ shell with files := files }.withSink descriptor sink, true)
  | .error error =>
    (shell.fail 2 (openFailure "create" "Directory nonexistent" target error), false)

/-- Leads a descriptor to where another one leads, or nowhere. -/
def redirectLike (shell : Shell) (descriptor : Nat) (target : Text) : Shell × Bool :=
  if target = ['-'] then
    if descriptor = 0 then ({ shell with input := [] }, true)
    else (shell.withSink descriptor .closed, true)
  else
    match readCount target with
    | .ok n =>
      if descriptor = 0 ∨ shell.isOpen n then (shell.withSink descriptor (shell.sink n), true)
      else (shell.fail 2 (target ++ ": Bad file descriptor".toList), false)
    | .error _ => (shell.fail 2 "Syntax error: Bad fd number".toList, false)

/-- Applies a redirection; whether it succeeds. -/
def redirect (expand : Substitution) (shell : Shell) (redirect : Redirect) : Shell × Bool :=
  let (target, shell) := shell.expandText expand redirect.target
  match redirect.kind with
  | .document => ({ shell with input := Utf8.encode target }, true)
  | .copy => shell.redirectLike redirect.descriptor target
  | .append => shell.redirectTo redirect.descriptor target true
  | .write =>
    if target = "/dev/stdout".toList then shell.redirectLike redirect.descriptor ['1']
    else if target = "/dev/stderr".toList then shell.redirectLike redirect.descriptor ['2']
    else shell.redirectTo redirect.descriptor target false
  | .read =>
    match shell.files.read shell.working target with
    | .ok bytes => (if redirect.descriptor = 0 then { shell with input := bytes } else shell, true)
    | .error error => (shell.fail 2 (openFailure "open" "No such file" target error), false)

/-- Applies redirections up to one that fails. -/
def redirectAll (expand : Substitution) (shell : Shell) : List Redirect → Shell × Bool
  | [] => (shell, true)
  | first :: rest =>
    match shell.redirect expand first with
    | (shell, true) => redirectAll expand shell rest
    | (shell, false) => (shell, false)

/-- Takes redirections back. -/
def restore (before after : Shell) (redirects : List Redirect) : Shell :=
  { after with
    sinks := before.sinks
    input := if redirectsInput redirects then before.input else after.input }

/-- Does something with redirections that are taken back afterwards. -/
def redirected (expand : Substitution) (redirects : List Redirect) (body : Shell → Shell)
    (shell : Shell) : Shell :=
  match shell.redirectAll expand redirects with
  | (opened, true) => shell.restore (body opened) redirects
  | (opened, false) => shell.restore opened redirects

/-! ## Signals -/

/-- A signal reaches the shell itself. -/
def receive (run : CommandRunner) (signal : Nat) (shell : Shell) : Shell :=
  let action :=
    if Signal.mayTrap signal then (shell.traps.find? (·.1 == signal)).map (·.2) else none
  match action with
  | some action => if action.isEmpty then shell else runText run action shell
  | none =>
    match Signal.effect signal with
    | .passes => shell
    | .halts => shell.hang
    | .ends =>
      if shell.process = scriptProcess then { shell with flow := .killed }
      else { shell.reportSignal signal with flow := .leave (128 + signal) }

/-- Sends a signal to a process. -/
def signalProcess (run : CommandRunner) (signal : Nat) (shell : Shell) (process : Text) : Shell :=
  if process = decimal shell.process then
    if shell.job = 0 then shell.receive run signal
    else if Signal.effect signal = .ends ∧ !shell.traps.any (·.1 == signal) then
      { shell with doom := some (min shell.clock (shell.doom.getD shell.clock)) }
    else shell
  else
    match shell.jobOf? process with
    | some job =>
      if shell.isAlive job then
        if Signal.effect signal = .ends then shell.endJob job.number signal else shell
      else shell.fail 1 "No such process\n".toList
    | none => shell.fail 1 "No such process\n".toList

/-- The signal and the processes that arguments name. -/
def signalArguments? : List Text → Option (Nat × List Text)
  | ['-', 's'] :: signal :: rest => (Signal.number? signal).map (·, rest)
  | ['-', 'n'] :: signal :: rest => (Signal.number? signal).map (·, rest)
  | ['-', '-'] :: rest => some (Signal.terminate, rest)
  | ('-' :: signal) :: rest => (Signal.number? signal).map (·, rest)
  | rest => some (Signal.terminate, rest)

/-- How the command that sends signals is used. -/
def killUsage : String :=
  "Usage: kill [-s sigspec | -signum | -sigspec] [pid | job]... or\nkill -l [exitstatus]"

/-- Prints the name of a signal by its number. -/
def nameSignal (shell : Shell) (number : Text) : Shell :=
  match (readCount number).toOption.bind Signal.name? with
  | some name => shell.print "kill" (Utf8.encode (name ++ ['\n']))
  | none => shell.fail 2 ("invalid signal number or exit status: ".toList ++ number)

/-- Sends a signal to processes. -/
def kill (run : CommandRunner) (shell : Shell) (arguments : List Text) : Shell :=
  match signalArguments? arguments with
  | some (signal, process :: more) =>
    (process :: more).foldl
      (fun shell process => if shell.isOn then shell.signalProcess run signal process else shell)
      (shell.withStatus 0)
  | some (_, []) => shell.fail 2 killUsage.toList
  | none =>
    match arguments with
    | ['-', 'l'] :: number :: _ => shell.nameSignal number
    | ['-', 's'] :: signal :: _ =>
      shell.fail 2 ("invalid signal number or name: ".toList ++ signal)
    | ('-' :: letter :: _) :: _ => shell.fail 2 ("Illegal option -".toList ++ [letter])
    | _ => shell.fail 2 killUsage.toList

/-! ## Programs -/

/-- The shell of a process that runs a script; it knows the variables that are handed on. -/
def child (shell : Shell) (replaces : Bool) (name : Text) (arguments : List Text) : Shell :=
  { shell with
    process := if replaces then shell.process else shell.process + 1000
    bindings :=
      shell.bindings.filter (shell.exported.contains ·.1) ++ standardVariables shell.working
    constants := []
    frames := []
    functions := []
    name := name
    arguments := arguments
    line := 1
    context := none
    status := 0
    traps := []
    guarded := false
    stopsOnFailure := false
    stopsOnUnset := false
    traces := false
    loops := 0
    flow := .on }

/-- Runs a script in a process of its own, or in place of the shell. -/
def runShell (run : CommandRunner) (replaces : Bool) (shell : Shell) (arguments : List Text) :
    Shell :=
  let flags := arguments.takeWhile fun text => text.head? == some '-' && 1 < text.length
  let rest := arguments.drop flags.length
  let begin_ (name : Text) (arguments : List Text) : Shell :=
    flags.foldl (fun shell letters => shell.setLetters letters true)
      (shell.child replaces name arguments)
  let inner :=
    match flags.any (·.contains 'c'), rest with
    | true, [] => shell.fail 2 "-c requires an argument".toList
    | true, script :: rest =>
      finish run (runText run script (begin_ (rest.head?.getD "sh".toList) rest.tail))
    | false, [] =>
      let script := Utf8.decodeLossy shell.input
      finish run (runText run script { begin_ "sh".toList [] with input := [] })
    | false, file :: rest =>
      match shell.files.read shell.working file with
      | .ok bytes => finish run (runText run (Utf8.decodeLossy bytes) (begin_ file rest))
      | .error error =>
        ({ shell with name := "sh".toList, line := 0, context := none }).fail 2
          (openFailure "open" "No such file" file error)
  shell.rejoin inner

/-- Gives local variables the values that they had before. -/
def endFrame (shell : Shell) : Shell :=
  match shell.frames with
  | [] => shell
  | frame :: outer =>
    frame.foldl (fun shell (name, value) => shell.assignBack name value)
      { shell with frames := outer }

/-- Runs the body of a function. -/
def call (run : CommandRunner) (shell : Shell) (body : Command) (arguments : List Text) : Shell :=
  let after := run body { shell with arguments := arguments, frames := [] :: shell.frames }
  { after.endFrame with
    arguments := shell.arguments
    flow := if after.flow = .returns then .on else after.flow }

/-- Whether a text is an assignment. -/
def isAssignment (text : Text) : Bool :=
  (splitAssignment text).2.isSome

/-- A program was not found or cannot be run. -/
def failCommand (shell : Shell) (name : Text) (error : FileError) : Shell :=
  if error = .notFound then shell.fail 127 (name ++ ": not found".toList)
  else shell.fail 126 (name ++ ": ".toList ++ error.words.toList)

/-- Whether the shell itself provides a command. -/
def provides (name : Text) : Bool :=
  ["exec", "eval", ".", "kill", "command", "type"].contains (String.ofList name) ||
    (builtinBody? (String.ofList name) []).isSome

/-- Prints what stands behind a name. -/
def describe (shell : Shell) (words : Bool) (name : Text) : Shell :=
  let line (short long : Text) : Shell :=
    shell.print "command" (Utf8.encode ((if words then name ++ long else short) ++ ['\n']))
  if shell.functions.any (·.1 == name) then line name " is a shell function".toList
  else if provides name then line name " is a shell builtin".toList
  else
    match shell.files.findProgram? shell.working name with
    | some path => line path (" is ".toList ++ path)
    | none =>
      if words then
        shell.print "type" (Utf8.encode (name ++ ": not found\n".toList)) |>.withStatus 127
      else shell.withStatus 127

/-- Why a path does not lead to a program. -/
def reason (shell : Shell) (name : Text) : FileError :=
  if name.contains '/' then
    match shell.files.entryAt shell.working name with
    | .ok _ => .denied
    | .error error => error
  else .notFound

/-- Runs a script of a file in the shell itself. -/
def source (run : CommandRunner) (shell : Shell) (arguments : List Text) : Shell :=
  match arguments with
  | [] => shell.withStatus 0
  | file :: _ =>
    if !file.contains '/' then shell.abort 2 (file ++ ": not found".toList)
    else
      match shell.files.read shell.working file with
      | .ok bytes =>
        let after := (shell.withStatus 0).within file (runText run (Utf8.decodeLossy bytes))
        { after with flow := if after.flow = .returns then .on else after.flow }
      | .error error => shell.abort 2 (openFailure "open" "No such file" file error)

/-- Runs a command given by its words: one that the script defines, one that the shell provides, or
a program; it may take the place of the shell. -/
def execute (run : CommandRunner) : Nat → Bool → List Text → Shell → Shell
  | 0, _, _, shell => shell.fail 126 "too many commands within one another".toList
  | _ + 1, _, [], shell => shell.withStatus 0
  | depth + 1, replaces, name :: arguments, shell =>
    match String.ofList name with
    | "exec" =>
      let after := shell.within name (execute run depth true arguments)
      if arguments.isEmpty || !after.isOn then after
      else { after with flow := .leave after.status }
    | "eval" => (shell.withStatus 0).within name (runText run (joined arguments))
    | "." => shell.within name (source run · arguments)
    | "kill" => shell.within name (kill run · arguments)
    | "type" => arguments.foldl (fun shell name => shell.describe true name) shell
    | "command" =>
      match arguments with
      | ['-', 'v'] :: names => names.foldl (fun shell name => shell.describe false name) shell
      | ['-', 'V'] :: names => names.foldl (fun shell name => shell.describe true name) shell
      | _ => execute run depth replaces (arguments.dropWhile (·.head? == some '-')) shell
    | _ =>
      match shell.functions.find? (·.1 == name) with
      | some (_, body) => shell.call run body arguments
      | none =>
        match builtin? name arguments shell with
        | some after => after
        | none =>
          match shell.files.findProgram? shell.working name with
          | none => shell.failCommand name (shell.reason name)
          | some path =>
            match shell.files.launch shell.working path arguments with
            | .ok (.shell, arguments) => runShell run replaces shell arguments
            | .ok (.env, arguments) =>
              let given := arguments.takeWhile isAssignment
              shell.rejoin (execute run depth replaces (arguments.drop given.length)
                (shell.exportAll given))
            | .ok (.kill, arguments) => shell.within name (kill run · arguments)
            | .ok (program, arguments) => shell.runProgram program name arguments
            | .error .badFormat => runShell run replaces shell (path :: arguments)
            | .error error => shell.failCommand name error

/-- How deep commands that run commands may be nested. -/
def executeDepth : Nat :=
  32

/-- Redirections that do nothing leave the rest as it was. -/
@[simp]
theorem redirectAll_nil (expand : Substitution) (shell : Shell) :
    shell.redirectAll expand [] = (shell, true) :=
  rfl

end Shell

end ScratchEditor

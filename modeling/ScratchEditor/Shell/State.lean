import ScratchEditor.Files.Launch
import ScratchEditor.Shell.Arithmetic
import ScratchEditor.Shell.Command

/-!
# The state of a shell

While a script runs, a clock counts the milliseconds since its start.  What it
writes is kept with the time of writing, because others watch it write.  Jobs
run beside the script; each has a number, and the script itself is job zero.

Main definitions:

- `Sink`, `ShellWrite` and `Job`.
- `Flow`: whether the next command runs.
- `Shell` with `send`, `complain`, `advance` and the values of parameters.
-/

namespace ScratchEditor

/-- Where a descriptor leads. -/
inductive Sink
  | output
  | errors
  | file (path : TreePath)
  | void
  | closed
  /-- To the command that takes the output of this one. -/
  | captured
deriving DecidableEq

/-- Bytes that left the script. -/
structure ShellWrite where
  time : Nat
  /-- The number of the job that wrote. -/
  job : Nat
  toErrors : Bool
  bytes : Bytes

/-- A command that runs beside the script. -/
structure Job where
  number : Nat
  /-- When it ends, if it ever does. -/
  stop : Option Nat
  /-- Whether it keeps the output of the script open until then. -/
  holdsOutput : Bool
  status : Nat

/-- Whether the next command runs. -/
inductive Flow
  | on
  /-- The shell exits with a code. -/
  | leave (code : Nat)
  /-- A signal ended the script. -/
  | killed
  /-- The script never ends. -/
  | stuck
  /-- Loops are left, or a function is. -/
  | breaks (levels : Nat)
  | continues (levels : Nat)
  | returns
deriving DecidableEq

/-- The state of a shell. -/
structure Shell where
  files : FileTree
  working : TreePath
  /-- The milliseconds since the start. -/
  clock : Nat
  /-- When a signal will end the script, if one is on its way. -/
  doom : Option Nat
  /-- The number of the process. -/
  process : Nat
  bindings : Variables
  /-- The variables that programs are given. -/
  exported : List Text
  /-- The variables that keep their values. -/
  constants : List Text
  /-- What the local variables of the functions that run stood for before, the latest first. -/
  frames : List (List (Text × Option Text))
  functions : List (Text × Command)
  /-- The name of the script and its arguments. -/
  name : Text
  arguments : List Text
  /-- The line of the command that runs. -/
  line : Nat
  /-- The command that complaints name, if they name one. -/
  context : Option Text
  status : Nat
  sinks : List (Nat × Sink)
  /-- What is left to read. -/
  input : Bytes
  /-- What left the script, the latest first. -/
  writes : List ShellWrite
  /-- What another command takes, the latest piece first. -/
  captured : List Bytes
  /-- The number of the job that runs. -/
  job : Nat
  jobs : List Job
  /-- What is done on signals, by their numbers; zero stands for the end. -/
  traps : List (Nat × Text)
  /-- Whether the status of the command that runs is looked at. -/
  guarded : Bool
  /-- Whether a failure ends the script. -/
  stopsOnFailure : Bool
  /-- Whether a parameter without a value ends the script. -/
  stopsOnUnset : Bool
  /-- Whether commands are shown before they run. -/
  traces : Bool
  /-- How many loops are being run. -/
  loops : Nat
  flow : Flow

namespace Shell

/-- The number of the process that runs the script. -/
def scriptProcess : Nat :=
  4242

/-- The variables of a shell that is handed none. -/
def standardVariables (working : TreePath) : Variables :=
  [("IFS".toList, " \t\n".toList), ("OPTIND".toList, ['1']), ("PS4".toList, "+ ".toList),
    ("PWD".toList, FileTree.pathText working)]

/-- The variables that the system hands to a shell. -/
def systemVariables : Variables :=
  [("PATH".toList, [':'].intercalate FileTree.programDirectories)]

/-- A shell at its start. -/
def start (files : FileTree) (working : TreePath) : Shell where
  files := files
  working := working
  clock := 0
  doom := none
  process := scriptProcess
  bindings := systemVariables ++ standardVariables working
  exported := systemVariables.map (·.1)
  constants := []
  frames := []
  functions := []
  name := "sh".toList
  arguments := []
  line := 1
  context := none
  status := 0
  sinks := [(1, .output), (2, .errors)]
  input := []
  writes := []
  captured := []
  job := 0
  jobs := []
  traps := []
  guarded := false
  stopsOnFailure := false
  stopsOnUnset := false
  traces := false
  loops := 0
  flow := .on

/-! ## Writing -/

/-- Where a descriptor leads. -/
def sink (shell : Shell) (descriptor : Nat) : Sink :=
  ((shell.sinks.find? (·.1 == descriptor)).map (·.2)).getD .closed

/-- The shell with a descriptor led elsewhere. -/
def withSink (shell : Shell) (descriptor : Nat) (sink : Sink) : Shell :=
  { shell with sinks := (descriptor, sink) :: shell.sinks.filter (·.1 != descriptor) }

/-- Whether bytes sent to a descriptor arrive. -/
def isOpen (shell : Shell) (descriptor : Nat) : Bool :=
  shell.sink descriptor != .closed

/-- The files with bytes behind those of one of them. -/
def appendTo (files : FileTree) (path : TreePath) (bytes : Bytes) : FileTree :=
  match files.lookup? path with
  | some (.file held runnable) => files.set path (.file (held ++ bytes) runnable)
  | _ => files

/-- Sends bytes to where a descriptor leads. -/
def send (shell : Shell) (descriptor : Nat) (bytes : Bytes) : Shell :=
  if bytes.isEmpty then shell
  else
    match shell.sink descriptor with
    | .output => { shell with writes := ⟨shell.clock, shell.job, false, bytes⟩ :: shell.writes }
    | .errors => { shell with writes := ⟨shell.clock, shell.job, true, bytes⟩ :: shell.writes }
    | .file path => { shell with files := appendTo shell.files path bytes }
    | .captured => { shell with captured := bytes :: shell.captured }
    | .void => shell
    | .closed => shell

/-- Sends a text to where a descriptor leads. -/
def sendText (shell : Shell) (descriptor : Nat) (text : Text) : Shell :=
  shell.send descriptor (Utf8.encode text)

/-- Everything that was captured. -/
def capturedBytes (shell : Shell) : Bytes :=
  shell.captured.reverse.flatten

/-! ## Status -/

/-- The shell with the status of its last command. -/
def withStatus (shell : Shell) (status : Nat) : Shell :=
  { shell with status := status }

/-- Says what went wrong in a line of the script. -/
def complain (shell : Shell) (what : Text) : Shell :=
  let parts := shell.name :: decimal shell.line :: shell.context.toList ++ [what]
  shell.sendText 2 (": ".toList.intercalate parts ++ ['\n'])

/-- Does something whose complaints name a command. -/
def within (shell : Shell) (command : Text) (body : Shell → Shell) : Shell :=
  { body { shell with context := some command } with context := shell.context }

/-- Says what went wrong, and fails. -/
def fail (shell : Shell) (status : Nat) (what : Text) : Shell :=
  (shell.complain what).withStatus status

/-- Ends the script because of what went wrong. -/
def abort (shell : Shell) (status : Nat) (what : Text) : Shell :=
  { shell.fail status what with flow := .leave status }

/-- The code with which the shell ends. -/
def code (shell : Shell) : Nat :=
  match shell.flow with
  | .leave code => code
  | _ => shell.status

/-- Whether the next command runs. -/
def isOn (shell : Shell) : Bool :=
  shell.flow == .on

/-! ## Time -/

/-- Lets time pass, unless a signal ends the script before. -/
def advanceTo (shell : Shell) (time : Nat) : Shell :=
  match shell.doom with
  | some doom =>
    if shell.job = 0 ∧ doom ≤ max shell.clock time then
      { shell with clock := max shell.clock doom, flow := .killed }
    else { shell with clock := max shell.clock time }
  | none => { shell with clock := max shell.clock time }

/-- Waits for ever. -/
def hang (shell : Shell) : Shell :=
  match shell.doom with
  | some doom => if shell.job = 0 then shell.advanceTo doom else { shell with flow := .stuck }
  | none => { shell with flow := .stuck }

/-! ## Parameters -/

/-- The number of the process of a job. -/
def jobProcess (number : Nat) : Nat :=
  scriptProcess + number

/-- The value of a parameter that has one text. -/
def parameter? (shell : Shell) (name : Text) : Option Text :=
  match name with
  | ['?'] => some (decimal shell.status)
  | ['#'] => some (decimal shell.arguments.length)
  | ['$'] => some (decimal shell.process)
  | ['!'] => shell.jobs.getLast?.map fun job => decimal (jobProcess job.number)
  | ['-'] => some (if shell.stopsOnFailure then ['e'] else [])
  | ['0'] => some shell.name
  | _ =>
    if name.all Char.isDigit then
      match readCount name with
      | .ok n => if n = 0 then some shell.name else shell.arguments[n - 1]?
      | .error _ => none
    else shell.bindings.value? name

/-- Sets a variable; one that keeps its value ends the script. -/
def assign (shell : Shell) (name value : Text) : Shell :=
  if shell.constants.contains name then shell.abort 2 (name ++ ": is read only".toList)
  else { shell with bindings := shell.bindings.set name value }

/-- Gives a variable the value that it had, or none. -/
def assignBack (shell : Shell) (name : Text) (value : Option Text) : Shell :=
  { shell with
    bindings :=
      match value with
      | some value => shell.bindings.set name value
      | none => shell.bindings.unset name }

/-! ## Processes of their own -/

/-- The shell after a process of its own ran: its files, its writes and its end are kept, and the
changes to its own state are not. -/
def rejoin (outer inner : Shell) : Shell :=
  { outer with
    files := inner.files
    clock := inner.clock
    doom := inner.doom
    writes := inner.writes
    captured := inner.captured
    input := inner.input
    jobs := inner.jobs
    status := inner.code
    flow :=
      match inner.flow with
      | .killed => .killed
      | .stuck => .stuck
      | _ => outer.flow }

@[simp]
theorem sink_withSink (shell : Shell) (descriptor : Nat) (sink : Sink) :
    (shell.withSink descriptor sink).sink descriptor = sink := by
  simp [withSink, Shell.sink]

/-- A process of its own leaves the variables alone. -/
@[simp]
theorem bindings_rejoin (outer inner : Shell) : (outer.rejoin inner).bindings = outer.bindings :=
  rfl

end Shell

end ScratchEditor

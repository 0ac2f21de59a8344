import ScratchEditor.CommandLine.Arguments
import ScratchEditor.CommandLine.Help
import ScratchEditor.Run.Host
import ScratchEditor.Settings.Store

/-!
# The program on the command line

The program prints a script, runs it, or finds an offset in it.  What goes wrong
is told by the exit code; nothing is printed about it.

Main definitions:

- `Outcome`: the exit code, what is printed, and the files afterwards.
- `Workspace.perform`: what the program does with its arguments.
-/

namespace ScratchEditor

/-- What a run of the program leaves behind. -/
structure Outcome where
  code : Nat
  printed : Text
  files : FileTree

/-- The exit code when all went well. -/
def successCode : Nat :=
  0

/-- The exit code when something went wrong. -/
def failureCode : Nat :=
  1

/-- The exit code when the arguments are not understood. -/
def refusalCode : Nat :=
  2

/-! ## Parts of the output -/

/-- What is printed in place of clearing a pane. -/
def clearedLine : Text :=
  "--- output cleared ---\n".toList

/-- What is printed for an event. -/
def PaneEvent.printed : PaneEvent → Text
  | .append chunk => chunk.text
  | .clear => clearedLine

/-- The first line of a text, without the carriage return and the line feed that end it. -/
def lineOfMessage (message : Text) : Text :=
  let line := message.takeWhile (· != '\n')
  if line.length < message.length ∧ line.getLast? = some '\r' then line.dropLast else line

/-- What is printed for a diagnostic of a script. -/
def Diagnostic.printed (diagnostic : Diagnostic) (file script : Text) : Text :=
  let target := diagnostic.target
  file ++ ':' :: decimal target.row ++ ':' :: decimal target.column ++
    ' ' :: diagnostic.severity.label.toList ++ " at offset ".toList ++
    decimal (script.offsetOf target) ++ ": ".toList ++ lineOfMessage diagnostic.message ++ ['\n']

/-- Hands out the events of a run up to its end. -/
def Host.finish (host : Host) : List PaneEvent × Host :=
  let last := host.coming.foldl (fun last entry => max last entry.1) host.now
  host.waitForExit (last - host.now)

/-- The file that an action is about. -/
def Action.file : Action → Text
  | .highlight file => file
  | .run file _ => file
  | .locate file _ => file

/-- The files that a request is about, the settings first. -/
def Request.files (standardConfig : Text) : Request → List Text
  | .call asked => [asked.config.getD standardConfig, asked.action.file]
  | _ => []

namespace Workspace

/-- The text of a script, which has to be UTF-8. -/
def script? (workspace : Workspace) (file : Text) : Option Text :=
  (workspace.files.read workspace.working file).toOption.bind Utf8.decode?

/-! ## Actions -/

/-- An outcome without changes of files. -/
def outcome (workspace : Workspace) (code : Nat) (printed : Text) : Outcome :=
  ⟨code, printed, workspace.files⟩

/-- Runs a script and prints what comes of it. -/
def runScript (workspace : Workspace) (settings : Settings) (file : Text)
    (interpreter : Option Text) (script : Text) : Outcome :=
  let run := { settings.run with interpreter := interpreter.getD settings.run.interpreter }
  match (Host.idle workspace run settings.theme.output).start script with
  | (.error _, host) => host.workspace.outcome failureCode []
  | (.ok (), host) =>
    let (events, host) := host.finish
    let printed := events.flatMap PaneEvent.printed ++
      host.runner.diagnostics.flatMap fun diagnostic => diagnostic.printed file script
    host.workspace.outcome (if host.runner.failed then failureCode else successCode) printed

/-- Does what is asked for with the settings that were loaded. -/
def act (workspace : Workspace) (settings : Settings) : Action → Outcome
  | .highlight file =>
    match workspace.script? file with
    | some script => workspace.outcome successCode script
    | none => workspace.outcome failureCode []
  | .run file interpreter =>
    match workspace.script? file with
    | some script => workspace.runScript settings file interpreter script
    | none => workspace.outcome failureCode []
  | .locate file (row, column) =>
    match workspace.script? file, readCount row, readCount column with
    | some script, .ok row, .ok column =>
      workspace.outcome successCode (decimal (script.offsetOf ⟨row, column⟩) ++ ['\n'])
    | _, _, _ => workspace.outcome failureCode []

/-- What the program does with its arguments; `standardConfig` is the path of the settings unless
another one is given. -/
def perform (workspace : Workspace) (standardConfig : Text) (arguments : List Text) : Outcome :=
  match Request.ofArguments arguments with
  | .refused => workspace.outcome refusalCode []
  | .version => workspace.outcome successCode ProgramRule.editor.versionLine.toList
  | .help none => workspace.outcome successCode ProgramRule.editor.help.toList
  | .help (some command) =>
    workspace.outcome successCode (command.help ProgramRule.editor).toList
  | .call call =>
    let (settings, files) :=
      Settings.loadOrCreate workspace.files workspace.working (call.config.getD standardConfig)
    { workspace with files := files }.act settings call.action

/-- Without arguments the program refuses to do anything. -/
@[simp]
theorem perform_nil (workspace : Workspace) (standardConfig : Text) :
    workspace.perform standardConfig [] = workspace.outcome refusalCode [] :=
  rfl

end Workspace

end ScratchEditor

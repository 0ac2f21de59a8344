import ScratchEditor.Shell.Process

/-!
# Running scripts

A command changes the state of the shell.  A script may never end, so the steps
that a run may take are limited; a run that takes more of them is stuck, which
is how a run that never ends looks from outside.

The settings may name any interpreter.  This one reads the part of the shell
language that a script needs to print, wait, read files and start jobs, so that
a run can be followed by evaluation.  The runner itself knows an interpreter only
by what `Execution` keeps of it.

Main definitions:

- `Command.eval`: the state after a command.
- `Shell.runCommand`: the state after a command given by its words.
-/

namespace ScratchEditor

namespace Shell

/-! ## Simple commands -/

/-- Whether a word runs a command. -/
def runsCommand (word : Word) : Bool :=
  word.any fun piece =>
    match piece with
    | .command _ _ => true
    | _ => false

/-- Sets variables to the values of words. -/
def assignAll (expand : Substitution) (shell : Shell) (assignments : List (Text × Word)) : Shell :=
  assignments.foldl
    (fun shell (name, word) =>
      let (value, shell) := shell.expandText expand word
      shell.assign name value)
    shell

/-- Gives a variable the value that it had before. -/
def unassign (before : Shell) (shell : Shell) (name : Text) : Shell :=
  shell.assignBack name (before.bindings.value? name)

/-- Ends the script after a failure, if it is to end and nobody looks at the failure. -/
def stopOnFailure (shell : Shell) : Shell :=
  if shell.stopsOnFailure && !shell.guarded && shell.status != 0 && shell.isOn then
    { shell with flow := .leave shell.status }
  else shell

/-- Shows a command before it runs, if that is asked for. -/
def trace (shell : Shell) (words : List Text) : Shell :=
  if shell.traces && !words.isEmpty then
    shell.sendText 2 ("+ ".toList ++ joined words ++ ['\n'])
  else shell

/-- The texts of the assignments that were made. -/
def assigned (shell : Shell) (assignments : List (Text × Word)) : List Text :=
  assignments.map fun (name, _) => name ++ '=' :: (shell.bindings.value? name).getD []

/-- Assignments without a command stay; their status is that of the last command in them. -/
def assignOnly (run : CommandRunner) (assignments : List (Text × Word))
    (redirects : List Redirect) (ranCommand : Bool) (shell : Shell) : Shell :=
  let expand := substitute run
  redirected expand redirects
    (fun shell =>
      let after := assignAll expand shell assignments
      let after := after.trace (after.assigned assignments)
      if !after.isOn then after
      else if ranCommand || assignments.any fun (_, word) => runsCommand word then after
      else after.withStatus 0)
    shell

/-- A command of words, with assignments and redirections that are taken back after it. -/
def runWords (run : CommandRunner) (assignments : List (Text × Word)) (words : List Text)
    (redirects : List Redirect) (shell : Shell) : Shell :=
  let expand := substitute run
  if words = ["exec".toList] then
    match shell.redirectAll expand redirects with
    | (after, true) => after.withStatus 0
    | (after, false) => { after with flow := .leave 2 }
  else
    redirected expand redirects
      (fun opened =>
        let given := assignAll expand opened assignments
        let shown := given.trace (given.assigned assignments ++ words)
        if shown.isOn then
          let names := assignments.map (·.1)
          let after :=
            execute run executeDepth false words { shown with exported := names ++ shown.exported }
          let exported := after.exported.filter fun name =>
            opened.exported.contains name || !names.contains name
          names.foldl (unassign opened) { after with exported := exported }
        else shown)
      shell

/-- A simple command. -/
def runSimple (run : CommandRunner) (assignments : List (Text × Word)) (words : List Word)
    (redirects : List Redirect) (shell : Shell) : Shell :=
  let (fields, expanded) := shell.expandFields (substitute run) words
  if !expanded.isOn then expanded
  else if fields.isEmpty then
    assignOnly run assignments redirects (words.any runsCommand) expanded
  else runWords run assignments fields redirects expanded

/-! ## Commands beside and before one another -/

/-- Whether some descriptor leads out of the script. -/
def holdsOutput (shell : Shell) : Bool :=
  shell.sinks.any fun entry => entry.2 == .output || entry.2 == .errors

/-- Runs a command beside the script, whose clock goes on as if it took no time. -/
def runBeside (run : CommandRunner) (body : Command) (shell : Shell) : Shell :=
  let number := shell.jobs.length + 1
  let (opened, _) := shell.redirectAll (substitute run) body.redirects
  let inner := run body { shell with job := number, input := [], traps := [] }
  let stop :=
    match inner.flow with
    | .stuck => none
    | _ => some inner.clock
  { shell with
    files := inner.files
    writes := inner.writes
    doom := inner.doom
    jobs := inner.jobs ++ [⟨number, stop, opened.holdsOutput, inner.code⟩]
    status := 0 }

/-- Runs a command in a process of its own. -/
def runApart (body : Shell → Shell) (shell : Shell) : Shell :=
  shell.rejoin (body { shell with traps := [] })

/-- Runs two commands, the second on what the first prints. -/
def runPiped (first second : Shell → Shell) (shell : Shell) : Shell :=
  let source := first { shell.withSink 1 .captured with captured := [], traps := [] }
  let between := shell.rejoin { source with captured := shell.captured }
  if between.isOn then
    let sink := second { between with input := source.capturedBytes, traps := [] }
    between.rejoin { sink with input := between.input }
  else between

/-- Runs a command whose status is looked at. -/
def runGuarded (body : Shell → Shell) (shell : Shell) : Shell :=
  { body { shell with guarded := true } with guarded := shell.guarded }

/-! ## Loops -/

/-- Runs the body of a loop. -/
def runInLoop (body : Shell → Shell) (shell : Shell) : Shell :=
  { body { shell with loops := shell.loops + 1 } with loops := shell.loops }

/-- The shell after one round of a loop, and whether there is another one. -/
def endRound (shell : Shell) : Shell × Bool :=
  match shell.flow with
  | .on => (shell, true)
  | .continues levels =>
    if levels ≤ 1 then ({ shell with flow := .on }, true)
    else ({ shell with flow := .continues (levels - 1) }, false)
  | .breaks levels =>
    ({ shell with flow := if levels ≤ 1 then .on else .breaks (levels - 1) }, false)
  | _ => (shell, false)

/-- Runs a body for each of some values. -/
def runEach (body : Shell → Shell) (name : Text) : List Text → Shell → Shell
  | [], shell => shell
  | value :: rest, shell =>
    match (runInLoop body (shell.assign name value)).endRound with
    | (after, true) => runEach body name rest after
    | (after, false) => after

end Shell

/-- The state of a shell after a command that takes at most some steps within one another. -/
def Command.eval : Nat → CommandRunner
  | 0, _, shell => { shell with flow := .stuck }
  | steps + 1, command, shell =>
    match command with
    | .nothing => shell
    | .simple assignments words redirects line =>
      (Shell.runSimple (eval steps) assignments words redirects
        { shell with line := line }).stopOnFailure
    | .sequence first second =>
      let after := eval steps first shell
      if after.isOn then eval steps second after else after
    | .background body => Shell.runBeside (eval steps) body shell
    | .andThen first second =>
      let after := Shell.runGuarded (eval steps first) shell
      if after.isOn && after.status == 0 then eval steps second after else after
    | .orElse first second =>
      let after := Shell.runGuarded (eval steps first) shell
      if after.isOn && after.status != 0 then eval steps second after else after
    | .pipe first second =>
      (Shell.runPiped (eval steps first) (eval steps second) shell).stopOnFailure
    | .negate body =>
      let after := Shell.runGuarded (eval steps body) shell
      after.withStatus (if after.status = 0 then 1 else 0)
    | .branch condition yes no =>
      let after := Shell.runGuarded (eval steps condition) shell
      if !after.isOn then after
      else if after.status = 0 then eval steps yes after
      else eval steps no (after.withStatus 0)
    | .loop whileFails condition body last =>
      let after := Shell.runInLoop (Shell.runGuarded (eval steps condition)) shell
      if !after.isOn then after.endRound.1
      else if (after.status == 0) != whileFails then
        match (Shell.runInLoop (eval steps body) after).endRound with
        | (after, true) => eval steps (.loop whileFails condition body after.status) after
        | (after, false) => after
      else after.withStatus last
    | .each name words body =>
      let (values, expanded) := shell.expandFields (Shell.substitute (eval steps)) words
      if expanded.isOn then
        Shell.runEach (eval steps body) name values (expanded.withStatus 0)
      else expanded
    | .cases subject patterns body others =>
      let expand := Shell.substitute (eval steps)
      let (text, expanded) := shell.expandText expand subject
      if patterns.any fun pattern => (expanded.expandGlob expand pattern).1.fits text then
        eval steps body (expanded.withStatus 0)
      else eval steps others (expanded.withStatus 0)
    | .define name body =>
      { shell with
        functions := (name, body) :: shell.functions.filter (·.1 != name)
        status := 0 }
    | .group body redirects =>
      Shell.redirected (Shell.substitute (eval steps)) redirects (eval steps body) shell
    | .isolate body redirects =>
      (Shell.runApart
        (Shell.redirected (Shell.substitute (eval steps)) redirects (eval steps body))
        shell).stopOnFailure

namespace Shell

/-- How many steps within one another a run may take. -/
def stepLimit : Nat :=
  200000

/-- Runs a command given by its words in place of a shell that has done nothing. -/
def runCommand (shell : Shell) (words : List Text) : Shell :=
  execute (Command.eval stepLimit) executeDepth true words shell

/-- Without steps a run is stuck. -/
@[simp]
theorem flow_eval_zero (command : Command) (shell : Shell) :
    (Command.eval 0 command shell).flow = .stuck :=
  rfl

end Shell

end ScratchEditor

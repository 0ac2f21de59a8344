import ScratchEditor.Pane.Log
import ScratchEditor.Report.Diagnostic
import ScratchEditor.Run.Failure
import ScratchEditor.Run.Message

/-!
# The runner

One script runs at a time.  Messages wait in a channel until the host drains it;
only then does the state change.  A message of a run that is no longer the
active one changes nothing.

Main definitions:

- `Runner` and `Runner.idle`.
- `Runner.start`, `stop`, `clearOutput`, `deliver` and `pump`.
-/

namespace ScratchEditor

/-- Where the runner stands. -/
inductive RunPhase
  | idle
  | starting
  | running
  | terminated
deriving DecidableEq

/-- The name of a phase. -/
def RunPhase.name : RunPhase → String
  | .idle => "Idle"
  | .starting => "Starting"
  | .running => "Running"
  | .terminated => "Terminated"

/-- The code reported for a script that a signal ended. -/
def signalledCode : Int :=
  -1

/-- The state of the runner. -/
structure Runner where
  colors : OutputColors
  phase : RunPhase
  /-- How many runs were launched; the latest has this number. -/
  launched : Nat
  /-- The number of the run that is active. -/
  active : Option Nat
  log : PaneLog
  /-- The events that were not handed out yet. -/
  pending : List PaneEvent
  /-- Whether the last run that ended failed. -/
  failed : Bool
  exitCode : Option Int
  diagnostics : List Diagnostic
  /-- The messages that were not handled yet, the oldest first. -/
  channel : List Envelope

namespace Runner

/-- A runner that has run nothing. -/
def idle (colors : OutputColors) (maxOutputChars : Nat) : Runner where
  colors := colors
  phase := .idle
  launched := 0
  active := none
  log := .empty maxOutputChars
  pending := []
  failed := false
  exitCode := none
  diagnostics := []
  channel := []

/-- Whether a run is active. -/
def isRunning (runner : Runner) : Bool :=
  runner.active.isSome

/-- Ends the active run; what it has not delivered is dropped. -/
def stop (runner : Runner) : Runner :=
  { runner with active := none, phase := .idle }

/-- The runner at the beginning of a run: nothing is left of the results of the last one. -/
def prepare (runner : Runner) : Runner :=
  { runner.stop with failed := false, exitCode := none, diagnostics := [], phase := .starting }

/-- Starts a run after the attempt to launch it; a failed attempt leaves the runner idle. -/
def start (runner : Runner) (launch : Except RunError Unit) : Except RunError Nat × Runner :=
  let prepared := runner.prepare
  match launch with
  | .error cause => (.error cause, { prepared with phase := .idle })
  | .ok () =>
    let number := prepared.launched + 1
    (.ok number,
      { prepared with launched := number, active := some number, phase := .running })

/-- Clears the pane with the next events that are handed out. -/
def clearOutput (runner : Runner) : Runner :=
  let (log, events) := runner.log.clear
  { runner with log := log, pending := runner.pending ++ events }

/-- A message arrives in the channel. -/
def deliver (runner : Runner) (envelope : Envelope) : Runner :=
  { runner with channel := runner.channel ++ [envelope] }

/-- Shows chunks in the pane. -/
def present (runner : Runner) (chunks : List Chunk) : Runner :=
  let (log, events) := runner.log.appendAll chunks
  { runner with log := log, pending := runner.pending ++ events }

/-- Takes note of the end of the active run. -/
def finish (runner : Runner) (code : Option Int) (report : Text) : Runner :=
  let code := code.getD signalledCode
  let (rendered, diagnostics) := renderReport report runner.colors
  let ended := { runner with phase := .terminated }
  { ended.present [rendered, Chunk.exit code runner.colors] with
    phase := .idle
    active := none
    failed := code != 0
    exitCode := some code
    diagnostics := diagnostics }

/-- Handles one message. -/
def handle (runner : Runner) (envelope : Envelope) : Runner :=
  if runner.active = some envelope.run then
    match envelope.message with
    | .printed text => runner.present [Chunk.output text runner.colors]
    | .exited code report => runner.finish code report
  else runner

/-- Handles all messages in the channel. -/
def handleAll (runner : Runner) : Runner :=
  runner.channel.foldl handle { runner with channel := [] }

/-- Handles all messages in the channel and hands out the events. -/
def pump (runner : Runner) : List PaneEvent × Runner :=
  let handled := runner.handleAll
  (handled.pending, { handled with pending := [] })

/-- A message of another run changes nothing. -/
theorem handle_of_active_ne {runner : Runner} {envelope : Envelope}
    (h : runner.active ≠ some envelope.run) : runner.handle envelope = runner := by
  simp [handle, h]

@[simp]
theorem active_stop (runner : Runner) : runner.stop.active = none :=
  rfl

end Runner

end ScratchEditor

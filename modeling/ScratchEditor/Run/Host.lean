import ScratchEditor.Run.Launch
import ScratchEditor.Run.Runner

/-!
# The host of the runner

The host starts and stops runs and asks for events.  Time passes only while it
waits; messages come at the times at which the run sends them.

Main definitions:

- `Host` with `start`, `stop`, `clearOutput` and `pump`.
- `Host.pumpFor` and `Host.waitForExit`: waiting with a limit of time.
-/

namespace ScratchEditor

/-- A runner in a workspace, and the messages that will come. -/
structure Host where
  workspace : Workspace
  settings : RunSettings
  runner : Runner
  /-- The milliseconds since the beginning. -/
  now : Nat
  /-- The messages that have not come yet, the first to come first. -/
  coming : List (Nat × Envelope)

namespace Host

/-- A host that has run nothing. -/
def idle (workspace : Workspace) (settings : RunSettings) (colors : OutputColors) : Host where
  workspace := workspace
  settings := settings
  runner := .idle colors settings.maxOutputChars
  now := 0
  coming := []

/-- The messages that are due come in. -/
def receive (host : Host) : Host :=
  let (due, later) := host.coming.span fun entry => entry.1 ≤ host.now
  { host with
    runner := due.foldl (fun runner entry => runner.deliver entry.2) host.runner
    coming := later }

/-- Ends the active run; nothing comes from it any more. -/
def stop (host : Host) : Host :=
  let host := host.receive
  { host with runner := host.runner.stop, coming := [] }

/-- Runs a text as a script after ending the active run. -/
def start (host : Host) (text : Text) : Except RunError Unit × Host :=
  let host := host.stop
  let (launched, workspace) := host.workspace.launch host.settings text
  match launched with
  | .error error =>
    let (_, runner) := host.runner.start (.error error)
    (.error error, { host with workspace := workspace, runner := runner })
  | .ok execution =>
    let (number, runner) := host.runner.start (.ok ())
    let number := number.toOption.getD 0
    let coming := execution.messages.map fun (time, message) =>
      (host.now + time, (⟨number, message⟩ : Envelope))
    (.ok (), { host with workspace := workspace, runner := runner, coming := coming })

/-- Clears the pane with the next events. -/
def clearOutput (host : Host) : Host :=
  { host with runner := host.runner.clearOutput }

/-- Hands out the events of all messages that have come. -/
def pump (host : Host) : List PaneEvent × Host :=
  let host := host.receive
  let (events, runner) := host.runner.pump
  (events, { host with runner := runner })

/-! ## Waiting -/

/-- Lets time pass until a message comes, but no longer than a limit. -/
def waitForMessage (host : Host) (limit : Nat) : Host :=
  match host.coming with
  | (time, _) :: _ => { host with now := max host.now (min time (host.now + limit)) }
  | [] => { host with now := host.now + limit }

/-- Like `pump`, but waits for a message first if there is nothing to hand out and a run is
active. -/
def pumpFor (host : Host) (limit : Nat) : List PaneEvent × Host :=
  let host := host.receive
  if host.runner.pending.isEmpty && host.runner.isRunning && host.runner.channel.isEmpty then
    (host.waitForMessage limit).pump
  else host.pump

/-- Hands out events until the run ends or a time has come, in at most some rounds. -/
def pumpUntil (deadline : Nat) : Nat → Host → List PaneEvent × Host
  | 0, host => host.pump
  | rounds + 1, host =>
    if host.runner.isRunning && host.now < deadline then
      let (events, host) := host.pumpFor (deadline - host.now)
      let (more, host) := pumpUntil deadline rounds host
      (events ++ more, host)
    else host.pump

/-- Hands out events until the run ends, but no longer than a limit of time.  A round handles a
message, passes the time that is left, or hands out what waited. -/
def waitForExit (host : Host) (limit : Nat) : List PaneEvent × Host :=
  pumpUntil (host.now + limit) (host.coming.length + host.runner.channel.length + 2) host

@[simp]
theorem coming_stop (host : Host) : host.stop.coming = [] :=
  rfl

/-- After a stop no run is active. -/
@[simp]
theorem active_runner_stop (host : Host) : host.stop.runner.active = none :=
  rfl

end Host

end ScratchEditor

import ScratchEditor.Shell.State

/-!
# Signals

A process is told to end, or to do something else, by a signal.  A script may
trap a signal, but not the one that kills.

Main definitions:

- `Signal.number?`: the number of a signal by its name or number.
- `SignalEffect` and `Signal.effect`: what a signal does that is not trapped.
- `Shell.endJob`: a signal ends a job.
-/

namespace ScratchEditor

/-- What a signal does that is not trapped. -/
inductive SignalEffect
  | ends
  | halts
  | passes
deriving DecidableEq

namespace Signal

/-- The signals by name. -/
def names : List (String × Nat) :=
  [("EXIT", 0), ("HUP", 1), ("INT", 2), ("QUIT", 3), ("ILL", 4), ("TRAP", 5), ("ABRT", 6),
    ("BUS", 7), ("FPE", 8), ("KILL", 9), ("USR1", 10), ("SEGV", 11), ("USR2", 12), ("PIPE", 13),
    ("ALRM", 14), ("TERM", 15), ("STKFLT", 16), ("CHLD", 17), ("CONT", 18), ("STOP", 19),
    ("TSTP", 20), ("TTIN", 21), ("TTOU", 22), ("URG", 23), ("XCPU", 24), ("XFSZ", 25),
    ("VTALRM", 26), ("PROF", 27), ("WINCH", 28), ("IO", 29), ("PWR", 30), ("SYS", 31)]

/-- The signal that asks a process to end. -/
def terminate : Nat :=
  15

/-- The signal that ends a process in any case. -/
def kill : Nat :=
  9

/-- The number of a signal by its name or its number. -/
def number? (text : Text) : Option Nat :=
  match readCount text with
  | .ok n => if n < 65 then some n else none
  | .error _ => (names.find? (·.1 == String.ofList (text.map Char.toUpper))).map (·.2)

/-- The name of a signal, or of the one that a status stands for. -/
def name? (number : Nat) : Option Text :=
  let number := if 128 < number then number - 128 else number
  (names.find? fun entry => entry.2 == number && number != 0).map (·.1.toList)

/-- How a process ended by a signal is described. -/
def description? (number : Nat) : Option String :=
  match number with
  | 1 => some "Hangup"
  | 3 => some "Quit"
  | 6 => some "Aborted"
  | 8 => some "Floating point exception"
  | 9 => some "Killed"
  | 10 => some "User defined signal 1"
  | 11 => some "Segmentation fault"
  | 12 => some "User defined signal 2"
  | 14 => some "Alarm clock"
  | 15 => some "Terminated"
  | _ => none

/-- What a signal does that is not trapped. -/
def effect (number : Nat) : SignalEffect :=
  if [0, 17, 18, 23, 28].contains number then .passes
  else if [19, 20, 21, 22].contains number then .halts
  else .ends

/-- Whether a signal may be trapped. -/
def mayTrap (number : Nat) : Bool :=
  number != kill && number != 19

end Signal

namespace Shell

/-- Ends a job by a signal: what it would have written later is not written. -/
def endJob (shell : Shell) (number signal : Nat) : Shell :=
  let time := shell.clock
  { shell with
    jobs := shell.jobs.map fun job =>
      if job.number = number then
        { job with
          stop := some (min time (job.stop.getD time))
          status := 128 + signal }
      else job
    writes := shell.writes.filter fun write => write.job != number || write.time ≤ time }

/-- Says that a signal ended a process, unless this goes without saying. -/
def reportSignal (shell : Shell) (signal : Nat) : Shell :=
  match Signal.description? signal with
  | some words => shell.sendText 2 (words.toList ++ ['\n'])
  | none => shell

/-- Whether a job still runs. -/
def isAlive (shell : Shell) (job : Job) : Bool :=
  match job.stop with
  | some stop => shell.clock < stop
  | none => true

end Shell

end ScratchEditor

import ScratchEditor.Run.Message
import ScratchEditor.Shell.Eval

/-!
# What a run looks like from outside

The output of a script is read in pieces as it is written.  A piece may end
inside a character, which is then completed by the next one.  The end of a run
is noticed when the script has ended and nothing holds its output open any more.

Main definitions:

- `Execution`: what a script wrote and how it ended.
- `Execution.messages`: the messages of a run with the times at which they come.
-/

namespace ScratchEditor

/-- What a script wrote, with the times of writing, and how it ended. -/
structure Execution where
  output : List (Nat × Bytes)
  errors : Bytes
  /-- When its output is closed for good, if it ever is. -/
  stop : Option Nat
  /-- The exit code, unless a signal ended the script. -/
  code : Option Int

namespace Execution

/-! ## From the state of a shell -/

/-- The later of two times, either of which may never come. -/
def later : Option Nat → Option Nat → Option Nat
  | some a, some b => some (max a b)
  | _, _ => none

/-- When the output of a shell is closed for good. -/
def closing (shell : Shell) : Option Nat :=
  let own : Option Nat := if shell.flow = .stuck then none else some shell.clock
  (shell.jobs.filter (·.holdsOutput)).foldl (fun time job => later time job.stop) own

/-- What the run of a shell looks like. -/
def ofShell (shell : Shell) : Execution :=
  let writes := shell.writes.reverse.mergeSort fun a b => a.time ≤ b.time
  let (errors, output) := writes.partition (·.toErrors)
  { output := output.map fun write => (write.time, write.bytes)
    errors := errors.flatMap (·.bytes)
    stop := closing shell
    code := if shell.flow = .killed then none else some (Int.ofNat shell.code) }

/-! ## Pieces -/

/-- How many bytes are read at once. -/
def readSize : Nat :=
  4096

/-- Bytes that were written at the same time belong together. -/
def gather : List (Nat × Bytes) → List (Nat × Bytes)
  | [] => []
  | (time, bytes) :: rest =>
    match gather rest with
    | [] => [(time, bytes)]
    | (next, more) :: others =>
      if time = next then (time, bytes ++ more) :: others
      else (time, bytes) :: (next, more) :: others

/-- Cuts bytes into pieces of at most a size. -/
def cut (size : Nat) : Nat → Bytes → List Bytes
  | 0, _ => []
  | fuel + 1, bytes =>
    if bytes.isEmpty then [] else bytes.take size :: cut size fuel (bytes.drop size)

/-- The pieces in which output is read, with their times. -/
def pieces (output : List (Nat × Bytes)) : List (Nat × Bytes) :=
  (gather output).flatMap fun (time, bytes) =>
    (cut readSize bytes.length bytes).map (time, ·)

/-- The texts of the pieces read from a stream, with their times, and what is left at the end. -/
def readPieces (stream : Utf8.Stream) : List (Nat × Bytes) → List (Nat × Text) × Text
  | [] => ([], stream.finish)
  | (time, piece) :: rest =>
    let (text, next) := (stream.push piece).take
    let (texts, left) := readPieces next rest
    ((time, text) :: texts, left)

/-! ## Messages -/

/-- How long it takes until what was written is read. -/
def readDelay : Nat :=
  1

/-- How long it takes until the end is noticed. -/
def endDelay : Nat :=
  2

/-- A message for a text, unless it is empty. -/
def printedAt (time : Nat) (text : Text) : List (Nat × RunMessage) :=
  if text.isEmpty then [] else [(time, .printed text)]

/-- The messages of a run in the order in which they come, with the times since its start. -/
def messages (execution : Execution) : List (Nat × RunMessage) :=
  let (texts, left) := readPieces .empty (pieces execution.output)
  let read := texts.flatMap fun (time, text) => printedAt (time + readDelay) text
  match execution.stop with
  | none => read
  | some stop =>
    read ++ printedAt (stop + readDelay) left ++
      [(stop + endDelay, .exited execution.code (Utf8.decodeLossy execution.errors))]

end Execution

end ScratchEditor

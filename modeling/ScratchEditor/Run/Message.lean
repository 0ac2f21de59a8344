import ScratchEditor.Text.Basic

/-!
# Messages from a run

A run is watched from the side.  What its script prints is sent as it comes, and
its end is sent once, with everything the script wrote to its error output.
Every message carries the number of its run.

Main definitions:

- `RunMessage` and `Envelope`.
-/

namespace ScratchEditor

/-- What a run reports. -/
inductive RunMessage
  /-- The script printed a text. -/
  | printed (text : Text)
  /-- The script ended, without an exit code if a signal ended it. -/
  | exited (code : Option Int) (report : Text)
deriving DecidableEq

/-- A message and the number of its run. -/
structure Envelope where
  run : Nat
  message : RunMessage
deriving DecidableEq

end ScratchEditor

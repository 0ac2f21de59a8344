import ScratchEditor.Files.Tree

/-!
# Why a run does not start

A run does not start when its script cannot be written, when its interpreter is
not there, or when the interpreter cannot be launched.

Main definitions:

- `RunError` with its name and wording.
-/

namespace ScratchEditor

/-- Why a run does not start. -/
inductive RunError
  /-- The script cannot be written. -/
  | scriptNotWritten (path : Text) (cause : FileError)
  /-- There is no such interpreter. -/
  | noInterpreter (interpreter : Text)
  /-- The interpreter cannot be launched. -/
  | notLaunched (interpreter : Text) (cause : FileError)
deriving DecidableEq

namespace RunError

/-- The mark around the name of an interpreter. -/
def nameMark : String :=
  String.singleton (Char.ofNat 96)

/-- The name of an interpreter as messages show it. -/
def markedName (interpreter : Text) : String :=
  nameMark ++ String.ofList interpreter ++ nameMark

/-- How the error is worded. -/
def message : RunError → String
  | scriptNotWritten path cause =>
    "could not write script to " ++ String.ofList path ++ ": " ++ cause.message
  | noInterpreter interpreter =>
    "interpreter " ++ markedName interpreter ++ " was not found on PATH"
  | notLaunched interpreter cause =>
    "could not launch " ++ markedName interpreter ++ ": " ++ cause.message

end RunError

end ScratchEditor

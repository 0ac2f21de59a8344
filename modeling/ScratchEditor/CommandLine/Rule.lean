import ScratchEditor.Run.Failure
import ScratchEditor.Text.Decimal

/-!
# What may be written on the command line

The program is given options, a command and what the command is about.  Every
value has a kind, which says what may be written for it.

Main definitions:

- `ValueRule`, `OptionRule` and `CommandRule`.
- `ProgramRule.editor`: the program with its commands.
-/

namespace ScratchEditor

/-- What may be written for a value. -/
inductive ValueKind
  /-- A path, which is not empty. -/
  | path
  | anything
  /-- A count below 2^64. -/
  | count
deriving DecidableEq

/-- Whether a text may be written for a value. -/
def ValueKind.accepts : ValueKind → Text → Bool
  | .path, text => !text.isEmpty
  | .anything, _ => true
  | .count, text => (readCount text).toBool

/-- A value that is written on the command line. -/
structure ValueRule where
  /-- The name that stands for the value in descriptions. -/
  name : String
  kind : ValueKind
  about : String
  /-- Whether it may be left out. -/
  optional : Bool
  /-- Whether it may be written more than once. -/
  repeated : Bool
deriving DecidableEq

/-- A value that has to be written once. -/
def ValueRule.required (name : String) (kind : ValueKind) : ValueRule :=
  ⟨name, kind, "", false, false⟩

/-- An option with a value. -/
structure OptionRule where
  /-- What is written before the value. -/
  name : String
  value : ValueRule
deriving DecidableEq

/-- A command with its options and values. -/
structure CommandRule where
  name : String
  about : String
  options : List OptionRule
  values : List ValueRule
  /-- Whether the command has the option that describes it. -/
  describesItself : Bool
deriving DecidableEq

/-- The whole program. -/
structure ProgramRule where
  name : String
  version : String
  about : String
  options : List OptionRule
  commands : List CommandRule

/-! ## The program -/

/-- The option that names the file of settings. -/
def configOption : OptionRule :=
  ⟨"config", ⟨"CONFIG", .path,
    "Config file to use instead of " ++ RunError.markedName "scriptpad.json".toList ++
      " next to the executable", true, false⟩⟩

/-- The option that names an interpreter. -/
def interpreterOption : OptionRule :=
  ⟨"interpreter", ⟨"INTERPRETER", .anything,
    "Interpreter to use instead of the configured one", true, false⟩⟩

/-- The value that names a script. -/
def fileValue : ValueRule :=
  .required "FILE" .path

/-- The command that prints a script. -/
def highlightRule : CommandRule :=
  ⟨"highlight", "Print a script with syntax colors", [configOption], [fileValue], true⟩

/-- The command that runs a script. -/
def runRule : CommandRule :=
  ⟨"run", "Run a script, streaming its output, then list its diagnostics",
    [configOption, interpreterOption], [fileValue], true⟩

/-- The command that finds an offset. -/
def locateRule : CommandRule :=
  ⟨"locate", "Print the char offset of a 1-based row and column", [configOption],
    [fileValue, .required "ROW" .count, .required "COLUMN" .count], true⟩

/-- The command that describes the others. -/
def helpRule : CommandRule :=
  ⟨"help", "Print this message or the help of the given subcommand(s)", [],
    [⟨"COMMAND", .anything, "Print help for the subcommand(s)", true, true⟩], false⟩

/-- The program with its commands. -/
def ProgramRule.editor : ProgramRule where
  name := "scriptpad"
  version := "0.3.0"
  about := "Scratch script editor engine: highlight, run, and locate diagnostics"
  options := [configOption]
  commands := [highlightRule, runRule, locateRule, helpRule]

/-- The command of a name. -/
def ProgramRule.command? (program : ProgramRule) (name : Text) : Option CommandRule :=
  program.commands.find? (·.name == String.ofList name)

end ScratchEditor

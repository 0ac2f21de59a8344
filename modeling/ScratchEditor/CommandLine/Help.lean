import ScratchEditor.CommandLine.Rule

/-!
# Descriptions of commands

A description says what a command does, how it is written, and what its parts
mean.  The parts stand in two columns.

Main definitions:

- `ProgramRule.help` and `CommandRule.help`: the descriptions.
- `ProgramRule.versionLine`.
-/

namespace ScratchEditor

/-! ## How parts are written -/

/-- How a value is written in a description. -/
def ValueRule.shown (value : ValueRule) : String :=
  (if value.optional then "[" ++ value.name ++ "]" else "<" ++ value.name ++ ">") ++
    (if value.repeated then "..." else "")

/-- How an option is written in a description. -/
def OptionRule.shown (option : OptionRule) : String :=
  "      --" ++ option.name ++ " <" ++ option.value.name ++ ">"

/-- An entry of a description: a part and what it means. -/
abbrev HelpEntry :=
  String × String

/-- A list of entries under a title, with the meanings in a column of their own. -/
def helpSection (title : String) (entries : List HelpEntry) : String :=
  let width := entries.foldl (fun width entry => max width entry.1.length) 0
  let line (entry : HelpEntry) : String :=
    entry.1 ++ String.ofList (List.replicate (width + 2 - entry.1.length) ' ') ++ entry.2 ++ "\n"
  title ++ ":\n" ++ String.join (entries.map line)

/-- The entry of a value. -/
def ValueRule.entry (value : ValueRule) : HelpEntry :=
  ("  " ++ value.shown, value.about)

/-- The entry of an option. -/
def OptionRule.entry (option : OptionRule) : HelpEntry :=
  (option.shown, option.value.about)

/-- The entry of the option that describes a command. -/
def helpEntry : HelpEntry :=
  ("  -h, --help", "Print help")

/-- The entry of the option that tells the version. -/
def versionEntry : HelpEntry :=
  ("  -V, --version", "Print version")

/-- The parts of a description: what is done, how it is written, and sections. -/
def helpPage (about usage : String) (sections : List String) : String :=
  "\n".intercalate ([about ++ "\n", "Usage: " ++ usage ++ "\n"] ++ sections)

/-! ## Descriptions -/

/-- The description of a command. -/
def CommandRule.help (program : ProgramRule) (command : CommandRule) : String :=
  let hasOptions := !command.options.isEmpty || command.describesItself
  let usage := " ".intercalate ([program.name, command.name] ++
    (if hasOptions then ["[OPTIONS]"] else []) ++ command.values.map (·.shown))
  let options := command.options.map (·.entry) ++
    (if command.describesItself then [helpEntry] else [])
  helpPage command.about usage
    ([helpSection "Arguments" (command.values.map (·.entry))] ++
      (if hasOptions then [helpSection "Options" options] else []))

/-- The description of the program. -/
def ProgramRule.help (program : ProgramRule) : String :=
  helpPage program.about (program.name ++ " [OPTIONS] <COMMAND>")
    [helpSection "Commands"
      (program.commands.map fun command => ("  " ++ command.name, command.about)),
    helpSection "Options" (program.options.map (·.entry) ++ [helpEntry, versionEntry])]

/-- The line that tells the version. -/
def ProgramRule.versionLine (program : ProgramRule) : String :=
  program.name ++ " " ++ program.version ++ "\n"

end ScratchEditor

import ScratchEditor.CommandLine.Rule

/-!
# Reading the command line

Arguments are read from left to right.  A value is checked when the next part
begins, so a request for help that comes before that is answered although the
value is wrong.

Main definitions:

- `Call`: what the program is asked to do.
- `Request.ofArguments`: what arguments ask for, or why they ask for nothing.
-/

namespace ScratchEditor

/-- What the program does. -/
inductive Action
  | highlight (file : Text)
  | run (file : Text) (interpreter : Option Text)
  | locate (file : Text) (spot : Text × Text)
deriving DecidableEq

/-- A file of settings, if one is named, and what is to be done. -/
structure Call where
  config : Option Text
  action : Action
deriving DecidableEq

/-- What arguments ask for. -/
inductive Request
  | call (call : Call)
  /-- The description of a command, or of the program. -/
  | help (command : Option CommandRule)
  | version
  /-- The arguments are not understood. -/
  | refused
deriving DecidableEq

namespace Arguments

/-- The state of reading the arguments of a command. -/
structure Reading where
  /-- The values that were checked, by their names. -/
  taken : List (String × Text)
  /-- The value that is not checked yet; it may still be awaited. -/
  pending : Option (ValueRule × Option Text)
  /-- How many values were written without an option. -/
  count : Nat
  /-- Whether everything that follows is a value. -/
  trailing : Bool

/-- Nothing was read. -/
def Reading.start : Reading :=
  ⟨[], none, 0, false⟩

/-- Checks the value that was written last. -/
def Reading.settle (reading : Reading) : Except Request Reading :=
  match reading.pending with
  | none => .ok reading
  | some (_, none) => .error .refused
  | some (value, some text) =>
    if value.kind.accepts text && !reading.taken.any (·.1 == value.name) then
      .ok { reading with taken := (value.name, text) :: reading.taken, pending := none }
    else .error .refused

/-- Whether an option waits for its value. -/
def Reading.awaits (reading : Reading) : Bool :=
  match reading.pending with
  | some (_, none) => true
  | _ => false

/-- The value of a name. -/
def Reading.value? (reading : Reading) (name : String) : Option Text :=
  (reading.taken.find? (·.1 == name)).map (·.2)

/-- What may be written at a place: options, values, and requests for help or the version. -/
structure Place where
  options : List OptionRule
  values : List ValueRule
  /-- What is described here. -/
  command : Option CommandRule

/-- A long option, with the value that is attached to it. -/
def readLong (place : Place) (reading : Reading) (name : Text) (attached : Option Text) :
    Except Request Reading :=
  match place.options.find? (·.name == String.ofList name) with
  | some option => do
    let reading ← reading.settle
    let next := { reading with pending := some (option.value, attached) }
    if attached.isSome then next.settle else return next
  | none =>
    if attached.isSome then .error .refused
    else if name = "help".toList then do
      let _ ← reading.settle
      .error (.help place.command)
    else if name = "version".toList ∧ place.command = none then do
      let _ ← reading.settle
      .error .version
    else .error .refused

/-- A short option. -/
def readShort (place : Place) (reading : Reading) (letter : Char) : Except Request Reading :=
  if letter = 'h' then do
    let _ ← reading.settle
    .error (.help place.command)
  else if letter = 'V' ∧ place.command = none then do
    let _ ← reading.settle
    .error .version
  else .error .refused

/-- A value without an option. -/
def readValue (place : Place) (reading : Reading) (text : Text) : Except Request Reading :=
  match place.values[reading.count]? with
  | none => .error .refused
  | some value => do
    let reading ← reading.settle
    return { reading with pending := some (value, some text), count := reading.count + 1 }

/-- One argument. -/
def readOne (place : Place) (reading : Reading) (text : Text) : Except Request Reading :=
  if reading.trailing then readValue place reading text
  else
    match text with
    | ['-', '-'] => .ok { reading with trailing := true }
    | '-' :: '-' :: rest =>
      let name := rest.takeWhile (· != '=')
      let attached :=
        match rest.drop name.length with
        | '=' :: value => some value
        | _ => none
      readLong place reading name attached
    | '-' :: letter :: _ => readShort place reading letter
    | _ =>
      match reading.pending with
      | some (value, none) => .ok { reading with pending := some (value, some text) }
      | _ => readValue place reading text

/-- The place behind a command. -/
def Place.ofCommand (command : CommandRule) : Place :=
  ⟨command.options, command.values, some command⟩

/-- The values of a command, all of which have to be there. -/
def readCommand (command : CommandRule) (arguments : List Text) : Except Request Reading := do
  let reading ← arguments.foldlM (readOne (.ofCommand command)) .start
  let reading ← reading.settle
  if command.values.all fun value => (reading.value? value.name).isSome then return reading
  else throw .refused

/-- The description that arguments behind the command for help ask for. -/
def readHelp (program : ProgramRule) : List Text → Request
  | [] => .help none
  | [name] =>
    match program.command? name with
    | some command => .help (some command)
    | none => .refused
  | _ => .refused

/-- What a command with its values asks for. -/
def action? (command : CommandRule) (reading : Reading) : Option Action := do
  let file ← reading.value? fileValue.name
  if command.name = highlightRule.name then return .highlight file
  else if command.name = runRule.name then
    return .run file (reading.value? interpreterOption.value.name)
  else return .locate file (← reading.value? "ROW", ← reading.value? "COLUMN")

/-- Reads the options before the command, then the command and what belongs to it.  What is written
last before the command is checked after the command, and a file of settings named behind the
command counts more than one named before it. -/
def readProgram (program : ProgramRule) (reading : Reading) :
    List Text → Except Request Request
  | [] => .error .refused
  | text :: rest =>
    let command :=
      if reading.trailing || reading.awaits then none else program.command? text
    match command with
    | none => do
      let next ← readOne ⟨program.options, [], none⟩ reading text
      readProgram program next rest
    | some command =>
      if command.name = helpRule.name then .ok (readHelp program rest)
      else do
        let inner ← readCommand command rest
        let outer ← reading.settle
        match action? command inner with
        | some action =>
          let name := configOption.value.name
          return .call ⟨(inner.value? name).or (outer.value? name), action⟩
        | none => throw .refused

end Arguments

/-- What arguments ask for. -/
def Request.ofArguments (arguments : List Text) : Request :=
  match Arguments.readProgram .editor .start arguments with
  | .ok request => request
  | .error request => request

/-- Without arguments nothing is asked for. -/
@[simp]
theorem Request.ofArguments_nil : Request.ofArguments [] = .refused :=
  rfl

end ScratchEditor

import ScratchEditor.Text.Basic

/-!
# JSON values

Settings are kept as JSON.  A number or a string is kept the way it is spelled
and is only interpreted when its value is asked for, so that an integer, a
fraction and a number too large for any field stay apart, and so that a string
nobody reads need not stand for a text.

Main definitions:

- `Json`: values with spelled leaves and ordered members.
-/

namespace ScratchEditor

/-- A JSON value.  The members of an object keep their order and may repeat a key. -/
inductive Json
  | null
  | bool (value : Bool)
  /-- A number as spelled. -/
  | number (spelling : Text)
  /-- A string by what stands between its quotes, escapes included. -/
  | string (body : Text)
  | array (items : List Json)
  /-- An object by its keys, spelled like strings, and their values. -/
  | object (members : List (Text × Json))

end ScratchEditor

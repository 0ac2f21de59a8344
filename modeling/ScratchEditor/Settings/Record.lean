import ScratchEditor.Json.Escape

/-!
# Records in JSON

A record is written as an object with one member per field, and may also be
given as an array of its fields in order.  A field that is not there takes its
default.  Members with other names do not matter; a field given twice, an array
with more items than fields, and any other value are refused.

Main definitions:

- `Json.fields?`: the values given for the fields of a record.
- `fieldOr`: a field, or its default when it is not given.
- `Json.record`: the object of a record.
-/

namespace ScratchEditor

namespace Json

/-- Puts a value at a place of a list unless there already is one. -/
def fill : List (Option Json) → Nat → Json → Option (List (Option Json))
  | [], _, _ => none
  | slot :: rest, 0, value =>
    match slot with
    | none => some (some value :: rest)
    | some _ => none
  | slot :: rest, index + 1, value => (fill rest index value).map (slot :: ·)

/-- Sorts the members of an object to the fields they name. -/
def sortMembers (names : List Text) :
    List (Option Json) → List (Text × Json) → Option (List (Option Json))
  | slots, [] => some slots
  | slots, (key, value) :: rest => do
    let name ← decodeText? key
    match names.findIdx? (· == name) with
    | none => sortMembers names slots rest
    | some index => sortMembers names (← fill slots index value) rest

/-- The values given for the fields of a record, one place for each name. -/
def fields? (names : List Text) : Json → Option (List (Option Json))
  | .object members => sortMembers names (names.map fun _ => none) members
  | .array items =>
    if items.length ≤ names.length then
      some (items.map some ++ (names.drop items.length).map fun _ => none)
    else none
  | _ => none

/-- The object of a record, from the names and values of its fields. -/
def record (members : List (String × Json)) : Json :=
  .object (members.map fun member => (encodeText member.1.toList, member.2))

end Json

/-- A field read from its value, or its default when there is none. -/
def fieldOr {α : Type} (default_ : α) (read : Json → Option α) : Option Json → Option α
  | none => some default_
  | some value => read value

end ScratchEditor

import ScratchEditor.Pane.Chunk

/-!
# The output pane

The pane is changed by events: a chunk is appended, or everything is cleared.
The log counts what the pane holds and clears it before the next chunk once it
holds more than its limit.

Main definitions:

- `PaneEvent`, `PaneLog`.
- `PaneLog.append` and `PaneLog.clear`: the log afterwards, and the events.
- `replay`: the text of a pane after some events.
-/

namespace ScratchEditor

/-- A change of the pane. -/
inductive PaneEvent
  | append (chunk : Chunk)
  | clear
deriving DecidableEq

/-- How many characters the pane may hold before it is cleared, and how many it holds. -/
structure PaneLog where
  limit : Nat
  held : Nat
deriving DecidableEq

namespace PaneLog

/-- The log of an empty pane. -/
def empty (limit : Nat) : PaneLog :=
  ⟨limit, 0⟩

/-- Clears the pane. -/
def clear (log : PaneLog) : PaneLog × List PaneEvent :=
  (⟨log.limit, 0⟩, [.clear])

/-- Appends a chunk, after clearing a pane that holds too much; an empty chunk is dropped. -/
def append (log : PaneLog) (chunk : Chunk) : PaneLog × List PaneEvent :=
  if chunk.isEmpty then (log, [])
  else if log.limit < log.held then (⟨log.limit, chunk.size⟩, [.clear, .append chunk])
  else (⟨log.limit, log.held + chunk.size⟩, [.append chunk])

/-- Appends chunks one after the other. -/
def appendAll (log : PaneLog) : List Chunk → PaneLog × List PaneEvent
  | [] => (log, [])
  | chunk :: rest =>
    let (log, events) := log.append chunk
    let (log, more) := appendAll log rest
    (log, events ++ more)

@[simp]
theorem limit_append (log : PaneLog) (chunk : Chunk) : (log.append chunk).1.limit = log.limit := by
  unfold append
  split
  · rfl
  · split <;> rfl

end PaneLog

/-- The text of a pane after one event. -/
def PaneEvent.apply (held : Text) : PaneEvent → Text
  | append chunk => held ++ chunk.text
  | clear => []

/-- The text of a pane after events. -/
def replay (held : Text) (events : List PaneEvent) : Text :=
  events.foldl PaneEvent.apply held

end ScratchEditor

import ScratchEditor.Text.Jump

/-!
# Jump requests

Links that are followed in the output wait for the editor, which takes them when
it is ready.  It may take all of them or only the latest.  After the editor has
gone nothing waits any more.

Main definitions:

- `JumpQueue` with `send`, `sendPayload`, `drain`, `latest` and `close`.
-/

namespace ScratchEditor

/-- The requests that wait, the oldest first. -/
structure JumpQueue where
  waiting : List Spot
  /-- Whether the editor is still there. -/
  isOpen : Bool
deriving DecidableEq

namespace JumpQueue

/-- Nothing waits. -/
def empty : JumpQueue :=
  ⟨[], true⟩

/-- Adds a request and says whether the editor will see it. -/
def send (queue : JumpQueue) (target : Spot) : Bool × JumpQueue :=
  if queue.isOpen then (true, { queue with waiting := queue.waiting ++ [target] })
  else (false, queue)

/-- Adds the request that a payload stands for. -/
def sendPayload (queue : JumpQueue) (payload : Text) : Except JumpError Bool × JumpQueue :=
  match Spot.parse payload with
  | .error cause => (.error cause, queue)
  | .ok target =>
    let (seen, queue) := queue.send target
    (.ok seen, queue)

/-- Takes all requests. -/
def drain (queue : JumpQueue) : List Spot × JumpQueue :=
  (queue.waiting, { queue with waiting := [] })

/-- Takes all requests and keeps the latest. -/
def latest (queue : JumpQueue) : Option Spot × JumpQueue :=
  (queue.waiting.getLast?, { queue with waiting := [] })

/-- The queue after the editor has gone. -/
def close (queue : JumpQueue) : JumpQueue :=
  { queue with waiting := [], isOpen := false }

@[simp]
theorem send_empty (target : Spot) : empty.send target = (true, ⟨[target], true⟩) :=
  rfl

end JumpQueue

end ScratchEditor

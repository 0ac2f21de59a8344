import Mathlib.Algebra.Ring.Nat
import ScratchEditor.Proofs.Pattern.Inside

/-!
# The size of trees

The states of a tree are counted along the way through it.  In the end there are those of its
parts, and where the groups are numbered makes no difference.

Main results:

- `Node.statesFrom_eq`: counting on from a number adds the states of the tree to it.
- `Node.states_sequence` and `Node.states_choice`: the states of sequences and choices.
-/

namespace ScratchEditor

namespace Node

/-- Counting on from a number adds the states of the tree to it. -/
theorem statesFrom_eq (node : Node) (count : Nat) :
    node.statesFrom count = count + node.states := by
  unfold states
  induction node generalizing count with
  | never => rfl
  | empty => rfl
  | char set => simp only [statesFrom, Nat.zero_add]
  | anchor condition => rfl
  | seq first second ihFirst ihSecond =>
    simp only [statesFrom]
    rw [ihFirst count, ihSecond, ihSecond (first.statesFrom 0)]
    omega
  | either first second ihFirst ihSecond =>
    simp only [statesFrom]
    rw [ihFirst (count + 1), ihFirst (0 + 1), ihSecond, ihSecond (0 + 1 + _)]
    omega
  | group index body ih =>
    simp only [statesFrom]
    rw [ih (count + 2), ih (0 + 2)]
    omega
  | times body least most greedy ih =>
    simp only [statesFrom]
    omega

variable (first second : Node)

@[simp]
theorem states_never : never.states = 0 :=
  rfl

@[simp]
theorem states_empty : empty.states = 0 :=
  rfl

theorem states_seq : (seq first second).states = first.states + second.states :=
  second.statesFrom_eq first.states

theorem states_either : (either first second).states = 1 + first.states + second.states := by
  have hsecond : (either first second).states = second.statesFrom (first.statesFrom 1) := rfl
  rw [hsecond, statesFrom_eq, statesFrom_eq]

theorem states_group (index : Nat) (body : Node) :
    (group index body).states = 2 + body.states :=
  body.statesFrom_eq 2

/-- One tree after the other takes the states of all of them. -/
theorem states_sequence (nodes : List Node) :
    (sequence nodes).states = (nodes.map states).sum := by
  induction nodes with
  | nil => rfl
  | cons node nodes ih =>
    have hseq : sequence (node :: nodes) = seq node (sequence nodes) := rfl
    rw [hseq, states_seq, ih, List.map_cons, List.sum_cons]

/-- A choice takes one more state for each of its alternatives. -/
theorem states_choice (nodes : List Node) :
    (choice nodes).states = (nodes.map fun node => 1 + node.states).sum := by
  induction nodes with
  | nil => rfl
  | cons node nodes ih =>
    have heither : choice (node :: nodes) = either node (choice nodes) := rfl
    rw [heither, states_either, ih, List.map_cons, List.sum_cons]

/-- Numbering the groups of a tree anew does not change its size. -/
theorem states_shift (n : Nat) (node : Node) : (node.shift n).states = node.states := by
  induction node with
  | never => rfl
  | empty => rfl
  | char set => rfl
  | anchor condition => rfl
  | seq first second ihFirst ihSecond => rw [shift, states_seq, states_seq, ihFirst, ihSecond]
  | either first second ihFirst ihSecond =>
    rw [shift, states_either, states_either, ihFirst, ihSecond]
  | group index body ih => rw [shift, states_group, states_group, ih]
  | times body least most greedy ih =>
    unfold states at ih ⊢
    rw [shift, statesFrom, statesFrom, ih]

end Node

/-- A pattern has room if a larger one has. -/
theorem Pattern.hasRoom_of_le {small large : Pattern} (h : small.node.states ≤ large.node.states)
    (hroom : large.hasRoom = true) : small.hasRoom = true := by
  unfold hasRoom at *
  rw [decide_eq_true_eq] at *
  exact Nat.le_trans (Nat.mul_le_mul_right stateSize h) hroom

end ScratchEditor

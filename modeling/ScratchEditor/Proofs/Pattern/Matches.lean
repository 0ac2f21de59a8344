import ScratchEditor.Pattern.Engine
import ScratchEditor.Proofs.Pattern.Scan

/-!
# The matches in a text stand in a row

Every match begins where the one before it ends or later, also where one of them is empty, and
what its groups capture lies inside it.

Main definitions:

- `Found.Inside`: a match of a text, with its groups inside it.
- `Found.Row`: matches one behind the other.
- `Engine.Sound`: an engine whose matches lie where they were looked for.

Main results:

- `Found.Inside.group?`: what a group of a match captures.
- `Found.row_all` and `Engine.row_findAll`: the matches in a text stand in a row.
-/

namespace ScratchEditor

namespace Found

/-- A match of a text, with its groups inside it. -/
structure Inside (text : Text) (found : Found) : Prop where
  start_le : found.start ≤ found.reached.offset
  reached_le : found.reached.offset ≤ text.length
  groups : ∀ group ∈ found.reached.groups,
    found.start ≤ group.2.start ∧ group.2.stop ≤ found.reached.offset

/-- What a group of a match captures lies inside the match. -/
theorem Inside.group? {text : Text} {found : Found} (h : found.Inside text) {index : Nat}
    {extent : Extent} (hgroup : found.group? index = some extent) :
    found.start ≤ extent.start ∧ extent.stop ≤ found.reached.offset := by
  rw [Found.group?] at hgroup
  split_ifs at hgroup with hzero
  · obtain rfl := Option.some.inj hgroup
    exact ⟨Nat.le_refl _, (Extent.stop_between h.start_le).le⟩
  · obtain ⟨group, hfind, rfl⟩ := Option.map_eq_some_iff.mp hgroup
    exact h.groups group (List.mem_of_find?_eq_some hfind)

/-- Matches of a text one behind the other, from an offset on. -/
inductive Row (text : Text) : Nat → List Found → Prop
  | nil {offset : Nat} : Row text offset []
  | cons {offset : Nat} {found : Found} {rest : List Found} (hle : offset ≤ found.start)
    (hinside : found.Inside text) (hrest : Row text found.reached.offset rest) :
    Row text offset (found :: rest)

theorem Row.mono {text : Text} {offset earlier : Nat} {founds : List Found}
    (h : Row text offset founds) (hle : earlier ≤ offset) : Row text earlier founds := by
  cases h with
  | nil => exact .nil
  | cons hstart hinside hrest => exact .cons (Nat.le_trans hle hstart) hinside hrest

/-- From a place on, the matches stand in a row. -/
theorem row_allFrom {matchAt? : Place → Option Found} (hsound : Sound matchAt?) (text : Text)
    (fuel : Nat) {place : Place} (barred : Bool) (hat : place.At text) :
    Row text place.offset (allFrom matchAt? fuel place barred) := by
  induction fuel generalizing place barred with
  | zero => exact .nil
  | succ fuel ih =>
    rcases allFrom_cases matchAt? hat fuel barred with
      ⟨found, hmatch, -, heq⟩ | ⟨-, ⟨-, heq⟩ | ⟨next, hnext, hoffset, heq⟩⟩
    · obtain ⟨hstart, hreached, hforward, hgroups⟩ := hsound.forward hat hmatch
      rw [← hstart] at hforward hgroups
      rw [heq]
      exact .cons (Nat.le_of_eq hstart.symm) ⟨hforward, hreached.offset_le, hgroups⟩
        (ih true hreached)
    · rw [heq]
      exact .nil
    · rw [heq]
      exact (ih false hnext).mono (by omega)

/-- The matches in a text stand in a row. -/
theorem row_all {matchAt? : Place → Option Found} (hsound : Sound matchAt?) (text : Text) :
    Row text 0 (all matchAt? text) := by
  have hstart : (Place.start text).At text := by
    rw [Place.at_start]
    exact Place.at_at (Nat.zero_le _)
  exact row_allFrom hsound text _ false hstart

end Found

/-! ## Engines -/

/-- An engine with which looking for a match of a pattern is sound. -/
class Engine.Sound (ρ : Type) [Engine ρ] : Prop where
  sound : ∀ pattern : ρ, Found.Sound (Engine.matchAt? pattern)

instance : Engine.Sound Pattern :=
  ⟨fun pattern => pattern.node.sound⟩

/-- The matches of a pattern in a text stand in a row. -/
theorem Engine.row_findAll {ρ : Type} [Engine ρ] [Engine.Sound ρ] (pattern : ρ) (text : Text) :
    Found.Row text 0 (Engine.findAll pattern text) :=
  Found.row_all (Engine.Sound.sound pattern) text

end ScratchEditor

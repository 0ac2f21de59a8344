import ScratchEditor.Proofs.Run.Supervision
import ScratchEditor.Run.Host

/-!
# The results of a runner

The phase of a runner, its active run and the results of the run that ended last are kept
apart, and are changed by launches, by stops and by messages.  Between two calls of the host
they fit together whatever happened before: results belong to the latest run and are there
only after its end, and the phase tells no more than whether a run is active.

Main definitions:

- `Runner.HasNoResults` and `Runner.cleared`: a runner without results, and an idle one.
- `Supervision.Settled`: phase and results that fit together.

Main results:

- `Supervision.Settled.move`: every move keeps them together.
- `Host.runner_start_of_error`: what is left by a run that cannot be launched.
- `Supervision.settled_of_reachable`: phase, results and events in every order of calls.
-/

namespace ScratchEditor

namespace Runner

/-- There are no results of a run. -/
def HasNoResults (runner : Runner) : Prop :=
  runner.exitCode = none ∧ runner.failed = false ∧ runner.diagnostics = []

/-- An idle runner without results; log, events and messages are left as they are. -/
def cleared (runner : Runner) : Runner :=
  { runner with
    phase := .idle
    active := none
    failed := false
    exitCode := none
    diagnostics := [] }

/-- A run that cannot be launched leaves a cleared runner. -/
theorem start_of_error {runner : Runner} {launch : Except RunError Unit} {cause : RunError}
    (h : (runner.start launch).1 = .error cause) :
    (runner.start launch).2 = runner.cleared := by
  cases launch with
  | error _ => rfl
  | ok _ => cases h

/-- The end of a run sets the results, and no run is active. -/
theorem finish_results (runner : Runner) (sent : Option Int) (report : Text) :
    (runner.finish sent report).phase = .idle ∧ (runner.finish sent report).active = none ∧
      (runner.finish sent report).launched = runner.launched ∧
      (runner.finish sent report).exitCode = some (sent.getD signalledCode) ∧
      (runner.finish sent report).failed = (sent.getD signalledCode != 0) ∧
      (runner.finish sent report).diagnostics = Diagnostic.parseAll report := by
  have hdiagnostics := snd_renderReport report runner.colors
  unfold finish
  generalize renderReport report runner.colors = render at hdiagnostics ⊢
  exact ⟨rfl, rfl, rfl, rfl, rfl, hdiagnostics⟩

end Runner

/-! ## Runs that cannot be launched -/

namespace Host

/-- Messages come in behind those in the channel. -/
theorem foldl_deliver (runner : Runner) (coming : List (Nat × Envelope)) :
    coming.foldl (fun runner entry => runner.deliver entry.2) runner =
      { runner with channel := runner.channel ++ coming.map Prod.snd } := by
  induction coming generalizing runner with
  | nil => simp
  | cons entry coming ih =>
    rw [List.foldl_cons, ih, Runner.deliver]
    simp

theorem exists_receive (host : Host) :
    ∃ late, host.receive.runner = { host.runner with channel := host.runner.channel ++ late } :=
  ⟨_, foldl_deliver host.runner _⟩

/-- A run that cannot be launched leaves a cleared runner; only messages have come. -/
theorem runner_start_of_error {host : Host} {text : Text} {cause : RunError}
    (h : (host.start text).1 = .error cause) :
    ∃ late, (host.start text).2.runner =
      { host.runner.cleared with channel := host.runner.channel ++ late } := by
  obtain ⟨late, hlate⟩ := host.exists_receive
  refine ⟨late, ?_⟩
  have hcleared : (host.start text).2.runner = host.receive.runner.cleared := by
    unfold start at h ⊢
    dsimp only at h ⊢
    split at h
    · rfl
    · cases h
  rw [hcleared, hlate]
  rfl

end Host

namespace Supervision

/-! ## Phase and results -/

/-- The phase and the results of a runner fit together and fit the last message handled. -/
structure Settled (s : Supervision) : Prop where
  phase : s.runner.phase = if s.runner.isRunning then .running else .idle
  /-- While a run is active there are no results. -/
  running : s.runner.isRunning = true → s.runner.HasNoResults
  failed : s.runner.failed = true ↔ ∃ code, s.runner.exitCode = some code ∧ code ≠ 0
  unended : s.runner.exitCode = none → s.runner.diagnostics = []
  /-- An exit code is that of the latest run, whose end was the last message handled. -/
  ended : ∀ code, s.runner.exitCode = some code → ∃ sent report,
    s.handled.getLast? = some ⟨s.runner.launched, .exited sent report⟩ ∧
      code = sent.getD signalledCode ∧ s.runner.diagnostics = Diagnostic.parseAll report

theorem settled_idle (colors : OutputColors) (maxOutputChars : Nat) :
    Settled (idle colors maxOutputChars) where
  phase := rfl
  running := fun _ => ⟨rfl, rfl, rfl⟩
  failed := by simp [idle, Runner.idle]
  unended := fun _ => rfl
  ended := by simp [idle, Runner.idle]

/-- What leaves phase, results and the messages handled alone keeps them together. -/
theorem Settled.of_eq {s t : Supervision} (h : Settled s)
    (hphase : t.runner.phase = s.runner.phase) (hactive : t.runner.active = s.runner.active)
    (hfailed : t.runner.failed = s.runner.failed)
    (hcode : t.runner.exitCode = s.runner.exitCode)
    (hdiagnostics : t.runner.diagnostics = s.runner.diagnostics)
    (hlaunched : t.runner.launched = s.runner.launched) (hhandled : t.handled = s.handled) :
    Settled t := by
  have hrunning : t.runner.isRunning = s.runner.isRunning := congrArg Option.isSome hactive
  constructor
  case phase => rw [hphase, hrunning, h.phase]
  case running =>
    intro hrun
    rw [hrunning] at hrun
    rw [Runner.HasNoResults, hcode, hfailed, hdiagnostics]
    exact h.running hrun
  case failed => rw [hfailed, hcode, h.failed]
  case unended =>
    rw [hcode, hdiagnostics]
    exact h.unended
  case ended =>
    rw [hcode, hdiagnostics, hlaunched, hhandled]
    exact h.ended

/-- A runner without results is settled, whatever was handled. -/
theorem settled_of_hasNoResults {s : Supervision} (h : s.runner.HasNoResults)
    (hphase : s.runner.phase = if s.runner.isRunning then .running else .idle) : Settled s := by
  obtain ⟨hcode, hfailed, hdiagnostics⟩ := h
  constructor
  case phase => exact hphase
  case running => exact fun _ => ⟨hcode, hfailed, hdiagnostics⟩
  case failed => simp [hfailed, hcode]
  case unended => exact fun _ => hdiagnostics
  case ended =>
    intro code hsome
    rw [hcode] at hsome
    cases hsome

/-- A runner is settled once the end of its latest run was handled. -/
theorem settled_of_finish {s : Supervision} {runner : Runner} {sent : Option Int} {report : Text}
    (hrunner : s.runner = runner.finish sent report)
    (hlast : s.handled.getLast? = some ⟨runner.launched, .exited sent report⟩) : Settled s := by
  obtain ⟨hphase, hactive, hlaunched, hcode, hfailed, hdiagnostics⟩ :=
    runner.finish_results sent report
  have hidle : s.runner.isRunning = false := by
    rw [Runner.isRunning, hrunner, hactive, Option.isSome_none]
  rw [← hrunner] at hphase hlaunched hcode hfailed hdiagnostics
  constructor
  case phase =>
    rw [hphase, hidle]
    rfl
  case running =>
    intro hrunning
    rw [hidle] at hrunning
    cases hrunning
  case failed =>
    rw [hfailed, hcode]
    simp
  case unended =>
    intro hnone
    rw [hcode] at hnone
    cases hnone
  case ended =>
    intro code hsome
    rw [hcode, Option.some.injEq] at hsome
    exact ⟨sent, report, by rw [hlaunched, hlast], hsome.symm, hdiagnostics⟩

/-- Handling a message keeps phase and results together. -/
theorem Settled.handleNext {s : Supervision} (h : Settled s) (hinv : Invariant s)
    (envelope : Envelope) (rest : List Envelope) : Settled (s.handleNext envelope rest) := by
  by_cases hactive : s.runner.active = some envelope.run
  · obtain ⟨run, message⟩ := envelope
    have hhandled : (s.handleNext ⟨run, message⟩ rest).handled = s.handled ++ [⟨run, message⟩] :=
      if_pos hactive
    cases message with
    | printed text =>
      -- The runner shows the text and is otherwise what it was, without results.
      have hrunning : s.runner.isRunning = true := by
        rw [Runner.isRunning, hactive, Option.isSome_some]
      have hrunner : (s.handleNext ⟨run, .printed text⟩ rest).runner =
          { s.runner with channel := rest }.present [Chunk.output text s.runner.colors] := by
        unfold Supervision.handleNext Runner.handle
        exact if_pos hactive
      apply settled_of_hasNoResults
      · rw [hrunner]
        exact h.running hrunning
      · rw [hrunner]
        exact h.phase
    | exited sent report =>
      have hrunner : (s.handleNext ⟨run, .exited sent report⟩ rest).runner =
          { s.runner with channel := rest }.finish sent report := by
        unfold Supervision.handleNext Runner.handle
        exact if_pos hactive
      have hlatest := (hinv.active_latest run hactive).1
      refine settled_of_finish hrunner ?_
      rw [hhandled, List.getLast?_concat, hlatest]
  · rw [handleNext_of_active_ne rest hactive]
    exact h.of_eq rfl rfl rfl rfl rfl rfl rfl

/-- Every move keeps phase and results together. -/
theorem Settled.move {s t : Supervision} (h : Settled s) (hinv : Invariant s) (hmove : Move s t) :
    Settled t := by
  cases hmove with
  | send hmay => exact h.of_eq rfl rfl rfl rfl rfl rfl rfl
  | handle hchannel => exact h.handleNext hinv _ _
  | run launch =>
    cases launch with
    | error cause => exact settled_of_hasNoResults ⟨rfl, rfl, rfl⟩ rfl
    | ok launched => exact settled_of_hasNoResults ⟨rfl, rfl, rfl⟩ rfl
  | stop =>
    constructor
    case phase => rfl
    case running =>
      intro hrun
      cases hrun
    case failed => exact h.failed
    case unended => exact h.unended
    case ended => exact h.ended
  | clearOutput => exact h.of_eq rfl rfl rfl rfl rfl rfl rfl
  | handOut => exact h.of_eq rfl rfl rfl rfl rfl rfl rfl

/-- Any number of moves keep phase and results together. -/
theorem Settled.moves {s t : Supervision} (h : Settled s) (hinv : Invariant s)
    (hmoves : Moves s t) : Settled t := by
  induction hmoves with
  | refl => exact h
  | tail hbefore hmove ih => exact ih.move (hinv.moves hbefore) hmove

/-! ## Events that wait -/

/-- Events without a chunk only clear the pane. -/
theorem shown_eq_nil_iff {events : List PaneEvent} :
    shown events = [] ↔ ∀ event ∈ events, event = .clear := by
  rw [shown, List.filterMap_eq_nil_iff]
  refine forall₂_congr fun event _ => ?_
  cases event <;> simp

/--
However runs are started, launched or not, stopped, cleared, pumped and waited for while messages
arrive, between two calls phase and results fit together, and the events that wait only clear the
pane.  A run that cannot be launched then leaves an idle runner without results and neither the log
nor the events that wait changed; of a host only the messages that came in meanwhile are added.
-/
theorem settled_of_reachable {colors : OutputColors} {maxOutputChars : Nat} {s : Supervision}
    (h : Reachable colors maxOutputChars s) :
    s.Settled ∧ (∀ event ∈ s.runner.pending, event = .clear) ∧
      (∀ launch cause, (s.runner.start launch).1 = .error cause →
        (s.runner.start launch).2 = s.runner.cleared) ∧
      ∀ (host : Host) (text : Text) (cause : RunError), host.runner = s.runner →
        (host.start text).1 = .error cause → ∃ late, (host.start text).2.runner =
          { s.runner.cleared with channel := s.runner.channel ++ late } := by
  have hsettled := (settled_idle colors maxOutputChars).moves
    (invariant_idle colors maxOutputChars) h.moves
  refine ⟨hsettled, shown_eq_nil_iff.mp (shown_pending_of_reachable h),
    fun _ _ => Runner.start_of_error, ?_⟩
  intro host text cause hrunner herror
  rw [← hrunner]
  exact Host.runner_start_of_error herror

/-- A report of one error. -/
def oneError : Text :=
  "a:1:2: error: x".toList

/-- A run that failed and reported an error; then the pane was cleared. -/
def failedOnce : Supervision :=
  let s := idle .standard 10
  let s := s.withRunner (s.runner.start (.ok ())).2
  let s := s.send ⟨1, .exited (some 3) oneError⟩
  let s := (s.handleNext ⟨1, .exited (some 3) oneError⟩ []).handOut
  s.withRunner s.runner.clearOutput

theorem reachable_failedOnce : Reachable .standard 10 failedOnce := by
  have hrun := Relation.ReflTransGen.single (Step.run (idle .standard 10) (.ok ()))
  have hsent := hrun.tail (@Step.send _ ⟨1, .exited (some 3) oneError⟩
    ⟨Nat.le_refl 1, Nat.le_refl 1, by
      intro message hmem
      cases hmem⟩)
  have hpump := hsent.tail (Step.pump (Drain.handle rfl (Drain.done rfl)))
  exact hpump.tail (Step.clearOutput _)

/-- The host that has come to a runner, and that can write no script. -/
def hostWithoutFiles (runner : Runner) : Host where
  workspace := ⟨.empty, [], "/tmp".toList⟩
  settings := .standard
  runner := runner
  now := 0
  coming := []

/-- The results of a failed run are there until the next run, here one that cannot be launched. -/
theorem settled_of_failedOnce :
    Reachable .standard 10 failedOnce ∧ failedOnce.runner.exitCode = some 3 ∧
      failedOnce.runner.failed = true ∧
      failedOnce.runner.diagnostics = Diagnostic.parseAll oneError ∧
      failedOnce.runner.pending = [.clear] ∧ (∀ event ∈ failedOnce.runner.pending, event = .clear) ∧
      ((hostWithoutFiles failedOnce.runner).start []).1 =
        .error (.scriptNotWritten "/tmp/scriptpad_script.swift".toList .notFound) ∧
      ((hostWithoutFiles failedOnce.runner).start []).2.runner.HasNoResults ∧
      ((hostWithoutFiles failedOnce.runner).start []).2.runner.pending = [.clear] := by
  obtain ⟨hsettled, hpending, -, hhost⟩ := settled_of_reachable reachable_failedOnce
  have hcode : failedOnce.runner.exitCode = some 3 := rfl
  have hdiagnostics : failedOnce.runner.diagnostics = Diagnostic.parseAll oneError := by
    obtain ⟨sent, report, hlast, -, hreport⟩ := hsettled.ended 3 hcode
    have hhandled : failedOnce.handled.getLast? = some ⟨1, .exited (some 3) oneError⟩ := rfl
    rw [hhandled] at hlast
    cases hlast
    exact hreport
  have herror : ((hostWithoutFiles failedOnce.runner).start []).1 =
      .error (.scriptNotWritten "/tmp/scriptpad_script.swift".toList .notFound) := rfl
  obtain ⟨late, hstart⟩ := hhost _ [] _ rfl herror
  refine ⟨reachable_failedOnce, hcode, hsettled.failed.mpr ⟨3, hcode, by decide⟩, hdiagnostics,
    rfl, hpending, herror, ?_, ?_⟩
  · rw [hstart]
    exact ⟨rfl, rfl, rfl⟩
  · rw [hstart]
    rfl

end Supervision

end ScratchEditor

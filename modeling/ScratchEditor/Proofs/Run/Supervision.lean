import Mathlib.Data.List.Basic
import Mathlib.Logic.Function.Basic
import Mathlib.Logic.Relation
import ScratchEditor.Run.Runner

/-!
# A runner and its supervisors

Every run has a supervisor, which sends what the script prints and, last of all,
its end.  Supervisors send at any time, also while the host waits in a call, and
messages of runs that were stopped or replaced long ago may still stand in the
channel.  One step of the whole is a message sent or a call of the host.

Main definitions:

- `Supervision`: a runner, what its runs have sent, what was handled of it, and
  what the host was given.
- `Supervision.Drain` and `Supervision.Wait`: emptying the channel and waiting for
  a first message while supervisors send.
- `Supervision.Step` and `Supervision.Reachable`; `Supervision.Move`, the parts of a step.

Main results:

- `Supervision.Drain.runner_eq` and `Supervision.Drain.pump_eq`: a call that empties the channel
  does what `Runner.pump` does with all messages that came before it returned.
- `Supervision.Invariant` and `Supervision.invariant_of_reachable`: only the latest
  run can be active, and what was handled of a run is the beginning of what it sent.
-/

namespace ScratchEditor

/-! ## What a runner does with one message -/

/-- The chunks among some events. -/
def shown (events : List PaneEvent) : List Chunk :=
  events.filterMap fun event =>
    match event with
    | .append chunk => some chunk
    | .clear => none

/-- How a message is shown: chunks without text are left out. -/
def RunMessage.rendering (colors : OutputColors) : RunMessage → List Chunk
  | .printed text => [Chunk.output text colors].filter fun chunk => !chunk.isEmpty
  | .exited code report =>
    [(renderReport report colors).1, Chunk.exit (code.getD signalledCode) colors].filter
      fun chunk => !chunk.isEmpty

@[simp]
theorem shown_nil : shown [] = [] :=
  rfl

@[simp]
theorem shown_append (a b : List PaneEvent) : shown (a ++ b) = shown a ++ shown b :=
  List.filterMap_append

/-- Clearing shows nothing. -/
@[simp]
theorem shown_clear (log : PaneLog) : shown log.clear.2 = [] :=
  rfl

/-- Appending a chunk shows it if it has a text. -/
theorem shown_append_log (log : PaneLog) (chunk : Chunk) :
    shown (log.append chunk).2 = [chunk].filter fun chunk => !chunk.isEmpty := by
  unfold PaneLog.append
  cases hempty : chunk.isEmpty with
  | true => simp [hempty]
  | false =>
    by_cases hfull : log.limit < log.held
    · simp [hempty, hfull, shown]
    · simp [hempty, hfull, shown]

/-- Appending chunks shows those that have a text, in order. -/
theorem shown_appendAll (log : PaneLog) (chunks : List Chunk) :
    shown (log.appendAll chunks).2 = chunks.filter fun chunk => !chunk.isEmpty := by
  induction chunks generalizing log with
  | nil => rfl
  | cons chunk rest ih =>
    have hstep : (log.appendAll (chunk :: rest)).2 =
        (log.append chunk).2 ++ ((log.append chunk).1.appendAll rest).2 := rfl
    rw [hstep, shown_append, shown_append_log, ih, ← List.filter_append, List.singleton_append]

/-- The end of a run is shown by what its report has to say and by the line about its exit code. -/
theorem rendering_exited (colors : OutputColors) (code : Option Int) (report : Text) :
    (RunMessage.exited code report).rendering colors =
      ([(renderReport report colors).1].filter fun chunk => !chunk.isEmpty) ++
        [Chunk.exit (code.getD signalledCode) colors] := by
  have hexit := Chunk.isEmpty_exit (code.getD signalledCode) colors
  cases hreport : (renderReport report colors).1.isEmpty <;>
    simp [RunMessage.rendering, hexit, hreport]

namespace Runner

/-- Showing chunks changes the log and adds to the events. -/
@[simp]
theorem shown_pending_present (runner : Runner) (chunks : List Chunk) :
    shown (runner.present chunks).pending =
      shown runner.pending ++ chunks.filter fun chunk => !chunk.isEmpty := by
  have hpending : (runner.present chunks).pending =
      runner.pending ++ (runner.log.appendAll chunks).2 := rfl
  rw [hpending, shown_append, shown_appendAll]

/-- What handling a message does to everything but the log and the results. -/
theorem handle_cases (runner : Runner) (envelope : Envelope) :
    (runner.active ≠ some envelope.run ∧ runner.handle envelope = runner) ∨
    (runner.active = some envelope.run ∧
      (runner.handle envelope).colors = runner.colors ∧
      (runner.handle envelope).launched = runner.launched ∧
      (runner.handle envelope).channel = runner.channel ∧
      shown (runner.handle envelope).pending =
        shown runner.pending ++ envelope.message.rendering runner.colors ∧
      (runner.handle envelope).active =
        match envelope.message with
        | .printed _ => some envelope.run
        | .exited _ _ => none) := by
  by_cases hactive : runner.active = some envelope.run
  · refine Or.inr ⟨hactive, ?_⟩
    obtain ⟨run, message⟩ := envelope
    cases message with
    | printed text =>
      have hhandle : runner.handle ⟨run, .printed text⟩ =
          runner.present [Chunk.output text runner.colors] := by
        unfold handle
        rw [if_pos hactive]
      rw [hhandle]
      exact ⟨rfl, rfl, rfl, shown_pending_present _ _, hactive⟩
    | exited code report =>
      have hhandle : runner.handle ⟨run, .exited code report⟩ = runner.finish code report := by
        unfold handle
        rw [if_pos hactive]
      have hshown := shown_pending_present { runner with phase := .terminated }
        [(renderReport report runner.colors).1,
          Chunk.exit (code.getD signalledCode) runner.colors]
      rw [hhandle]
      exact ⟨rfl, rfl, rfl, hshown, rfl⟩
  · exact Or.inl ⟨hactive, handle_of_active_ne hactive⟩

end Runner

/-! ## Supervised runs -/

/-- A runner together with what its runs did. -/
structure Supervision where
  runner : Runner
  /-- What each run has sent, the oldest first. -/
  sent : Nat → List RunMessage
  /-- The messages that were handled while their run was the active one, the oldest first. -/
  handled : List Envelope
  /-- The events that the host was given, the oldest first. -/
  returned : List PaneEvent

namespace Supervision

/-- A runner that has run nothing. -/
def idle (colors : OutputColors) (maxOutputChars : Nat) : Supervision where
  runner := .idle colors maxOutputChars
  sent := fun _ => []
  handled := []
  returned := []

/-- What was handled of a run. -/
def handledOf (s : Supervision) (run : Nat) : List RunMessage :=
  (s.handled.filter fun envelope => envelope.run = run).map Envelope.message

/-- What stands in the channel from a run. -/
def waitingOf (s : Supervision) (run : Nat) : List RunMessage :=
  (s.runner.channel.filter fun envelope => envelope.run = run).map Envelope.message

/-- What a run has shown. -/
def block (s : Supervision) (run : Nat) : List Chunk :=
  (s.handledOf run).flatMap (RunMessage.rendering s.runner.colors)

/-- Whether a message is the end of a run. -/
def IsEnd (message : RunMessage) : Prop :=
  ∃ code report, message = .exited code report

/-- A supervisor sends for a run that was launched, and nothing behind its end. -/
def MaySend (s : Supervision) (envelope : Envelope) : Prop :=
  1 ≤ envelope.run ∧ envelope.run ≤ s.runner.launched ∧
    ∀ message ∈ s.sent envelope.run, ¬ IsEnd message

/-- A message is sent. -/
def send (s : Supervision) (envelope : Envelope) : Supervision :=
  { s with
    runner := s.runner.deliver envelope
    sent := Function.update s.sent envelope.run (s.sent envelope.run ++ [envelope.message]) }

/-- The first message of the channel is handled, and `rest` stands behind it. -/
def handleNext (s : Supervision) (envelope : Envelope) (rest : List Envelope) : Supervision :=
  { s with
    runner := { s.runner with channel := rest }.handle envelope
    handled :=
      if s.runner.active = some envelope.run then s.handled ++ [envelope] else s.handled }

/-- The host is given the events that wait. -/
def handOut (s : Supervision) : Supervision :=
  { s with
    runner := { s.runner with pending := [] }
    returned := s.returned ++ s.runner.pending }

/-- The runner after a call that starts, stops or clears. -/
def withRunner (s : Supervision) (runner : Runner) : Supervision :=
  { s with runner := runner }

/-- The messages of the channel are handled until there are none, while supervisors send. -/
inductive Drain : Supervision → Supervision → Prop
  | done {s : Supervision} (hchannel : s.runner.channel = []) : Drain s s
  | handle {s t : Supervision} {envelope : Envelope} {rest : List Envelope}
    (hchannel : s.runner.channel = envelope :: rest) (h : Drain (s.handleNext envelope rest) t) :
    Drain s t
  | send {s t : Supervision} {envelope : Envelope} (hmay : s.MaySend envelope)
    (h : Drain (s.send envelope) t) : Drain s t

/-- With no event at hand and a run active, a first message is waited for and handled, unless the
time is over before one comes. -/
inductive Wait : Supervision → Supervision → Prop
  | skip {s : Supervision} (hskip : s.runner.pending ≠ [] ∨ s.runner.isRunning = false) : Wait s s
  | timeout {s : Supervision} (hchannel : s.runner.channel = []) : Wait s s
  | handle {s : Supervision} {envelope : Envelope} {rest : List Envelope}
    (hpending : s.runner.pending = []) (hrunning : s.runner.isRunning = true)
    (hchannel : s.runner.channel = envelope :: rest) : Wait s (s.handleNext envelope rest)
  | send {s t : Supervision} {envelope : Envelope} (hmay : s.MaySend envelope)
    (h : Wait (s.send envelope) t) : Wait s t

/-- One step: a supervisor sends, or the host makes a call. -/
inductive Step : Supervision → Supervision → Prop
  | send {s : Supervision} {envelope : Envelope} (hmay : s.MaySend envelope) :
    Step s (s.send envelope)
  | run (s : Supervision) (launch : Except RunError Unit) :
    Step s (s.withRunner (s.runner.start launch).2)
  | stop (s : Supervision) : Step s (s.withRunner s.runner.stop)
  | clearOutput (s : Supervision) : Step s (s.withRunner s.runner.clearOutput)
  | pump {s t : Supervision} (h : Drain s t) : Step s t.handOut
  | pumpTimeout {s t u : Supervision} (hwait : Wait s t) (h : Drain t u) : Step s u.handOut

/-- What a runner comes to from the beginning, in any number of steps. -/
def Reachable (colors : OutputColors) (maxOutputChars : Nat) (s : Supervision) : Prop :=
  Relation.ReflTransGen Step (idle colors maxOutputChars) s

/-- A step seen closer: every message is handled in a move of its own. -/
inductive Move : Supervision → Supervision → Prop
  | send {s : Supervision} {envelope : Envelope} (hmay : s.MaySend envelope) :
    Move s (s.send envelope)
  | handle {s : Supervision} {envelope : Envelope} {rest : List Envelope}
    (hchannel : s.runner.channel = envelope :: rest) : Move s (s.handleNext envelope rest)
  | run (s : Supervision) (launch : Except RunError Unit) :
    Move s (s.withRunner (s.runner.start launch).2)
  | stop (s : Supervision) : Move s (s.withRunner s.runner.stop)
  | clearOutput (s : Supervision) : Move s (s.withRunner s.runner.clearOutput)
  | handOut (s : Supervision) : Move s s.handOut

/-- Any number of moves. -/
def Moves : Supervision → Supervision → Prop :=
  Relation.ReflTransGen Move

/-! ## Sending and handling -/

theorem waitingOf_cons {s : Supervision} {envelope : Envelope} {rest : List Envelope}
    (hchannel : s.runner.channel = envelope :: rest) (run : Nat) :
    s.waitingOf run = (if envelope.run = run then [envelope.message] else []) ++
      (rest.filter fun envelope => envelope.run = run).map Envelope.message := by
  unfold waitingOf
  rw [hchannel]
  by_cases hrun : envelope.run = run <;> simp [hrun]

@[simp]
theorem handledOf_send (s : Supervision) (envelope : Envelope) (run : Nat) :
    (s.send envelope).handledOf run = s.handledOf run :=
  rfl

theorem waitingOf_send (s : Supervision) (envelope : Envelope) (run : Nat) :
    (s.send envelope).waitingOf run =
      s.waitingOf run ++ if envelope.run = run then [envelope.message] else [] := by
  unfold waitingOf send Runner.deliver
  rw [List.filter_append, List.map_append]
  by_cases hrun : envelope.run = run <;> simp [hrun]

theorem sent_send (s : Supervision) (envelope : Envelope) (run : Nat) :
    (s.send envelope).sent run =
      s.sent run ++ if envelope.run = run then [envelope.message] else [] := by
  unfold send
  by_cases hrun : envelope.run = run
  · subst hrun
    simp
  · simp [hrun, Function.update_of_ne (Ne.symm hrun)]

/-- The first message only leaves the channel if its run is not the active one. -/
theorem handleNext_of_active_ne {s : Supervision} {envelope : Envelope} (rest : List Envelope)
    (hactive : s.runner.active ≠ some envelope.run) :
    s.handleNext envelope rest = s.withRunner { s.runner with channel := rest } := by
  have hsame : { s.runner with channel := rest }.handle envelope =
      { s.runner with channel := rest } := Runner.handle_of_active_ne hactive
  unfold handleNext withRunner
  rw [hsame, if_neg hactive]

/-- Handling the first message takes it out of the channel, and starts no run. -/
theorem handleNext_keeps (s : Supervision) (envelope : Envelope) (rest : List Envelope) :
    (s.handleNext envelope rest).runner.colors = s.runner.colors ∧
      (s.handleNext envelope rest).runner.launched = s.runner.launched ∧
      (s.handleNext envelope rest).runner.channel = rest := by
  rcases Runner.handle_cases { s.runner with channel := rest } envelope with
    ⟨hactive, -⟩ | ⟨-, hcolors, hlaunched, hchannel, -⟩
  · rw [handleNext_of_active_ne rest hactive]
    exact ⟨rfl, rfl, rfl⟩
  · exact ⟨hcolors, hlaunched, hchannel⟩

/-- A run that is active behind the first message was so before it, and has not ended with it. -/
theorem active_of_handleNext {s : Supervision} {envelope : Envelope} {rest : List Envelope}
    {run : Nat} (h : (s.handleNext envelope rest).runner.active = some run) :
    s.runner.active = some run ∧ (envelope.run = run → ¬ IsEnd envelope.message) := by
  rcases Runner.handle_cases { s.runner with channel := rest } envelope with
    ⟨hother, -⟩ | ⟨hactive, -, -, -, -, hafter⟩
  · rw [handleNext_of_active_ne rest hother] at h
    refine ⟨h, ?_⟩
    rintro rfl
    exact absurd h hother
  · have hrun := hafter.symm.trans h
    cases hmessage : envelope.message with
    | printed text =>
      rw [hmessage] at hrun
      obtain rfl := Option.some.inj hrun
      refine ⟨hactive, fun _ => ?_⟩
      rintro ⟨code, report, heq⟩
      cases heq
    | exited code report =>
      rw [hmessage] at hrun
      cases hrun

/-- The first message joins those that were handled of its run, if this run is active. -/
theorem handledOf_handleNext (s : Supervision) (envelope : Envelope) (rest : List Envelope)
    (run : Nat) :
    (s.handleNext envelope rest).handledOf run = s.handledOf run ++
      if s.runner.active = some run ∧ envelope.run = run then [envelope.message] else [] := by
  by_cases hactive : s.runner.active = some envelope.run
  · have hhandled : (s.handleNext envelope rest).handled = s.handled ++ [envelope] :=
      if_pos hactive
    unfold handledOf
    rw [hhandled, List.filter_append, List.map_append]
    by_cases hrun : envelope.run = run
    · subst hrun
      simp [hactive]
    · simp [hrun]
  · have hnone : ¬ (s.runner.active = some run ∧ envelope.run = run) := by
      rintro ⟨hrun, rfl⟩
      exact hactive hrun
    rw [handleNext_of_active_ne rest hactive, if_neg hnone, List.append_nil]
    rfl

/-- The chunks of the first message are shown if its run is active. -/
theorem shown_handleNext (s : Supervision) (envelope : Envelope) (rest : List Envelope) :
    shown (s.handleNext envelope rest).runner.pending = shown s.runner.pending ++
      if s.runner.active = some envelope.run then envelope.message.rendering s.runner.colors
      else [] := by
  rcases Runner.handle_cases { s.runner with channel := rest } envelope with
    ⟨hactive, -⟩ | ⟨hactive, -, -, -, hshown, -⟩
  · dsimp only at hactive
    rw [handleNext_of_active_ne rest hactive, if_neg hactive, List.append_nil]
    rfl
  · dsimp only at hactive
    rw [if_pos hactive]
    exact hshown

/-! ## The invariant -/

/-- Behind the end of a run nothing comes. -/
def EndsOnce (messages : List RunMessage) : Prop :=
  ∀ front message back, messages = front ++ message :: back → IsEnd message → back = []

/-- What holds whenever the host or a supervisor acts, and also between two messages. -/
structure Invariant (s : Supervision) : Prop where
  /-- Only the latest run can be active. -/
  active_latest : ∀ run, s.runner.active = some run → run = s.runner.launched ∧ 1 ≤ run
  /-- Messages in the channel are from runs that were launched. -/
  channel_launched : ∀ envelope ∈ s.runner.channel,
    1 ≤ envelope.run ∧ envelope.run ≤ s.runner.launched
  /-- Runs that were not launched have sent nothing. -/
  sent_launched : ∀ run, s.runner.launched < run → s.sent run = []
  /-- The messages handled of one run stand together, those of earlier runs first. -/
  handled_blocks : s.handled = (List.range s.runner.launched).flatMap fun i =>
    s.handled.filter fun envelope => envelope.run = i + 1
  /-- What an active run has sent was handled or waits. -/
  active_sent : ∀ run, s.runner.active = some run →
    s.sent run = s.handledOf run ++ s.waitingOf run
  /-- The end of an active run was not handled. -/
  active_open : ∀ run, s.runner.active = some run →
    ∀ message ∈ s.handledOf run, ¬ IsEnd message
  /-- What was handled of a run is the beginning of what it has sent. -/
  handled_sent : ∀ run, s.handledOf run <+: s.sent run
  /-- A run sends its end as its last message. -/
  sent_ends : ∀ run, EndsOnce (s.sent run)
  /-- The chunks shown are those of the messages handled. -/
  shown_handled : shown (s.returned ++ s.runner.pending) =
    s.handled.flatMap fun envelope => envelope.message.rendering s.runner.colors

theorem invariant_idle (colors : OutputColors) (maxOutputChars : Nat) :
    Invariant (idle colors maxOutputChars) where
  active_latest := by simp [idle, Runner.idle]
  channel_launched := by simp [idle, Runner.idle]
  sent_launched := by simp [idle]
  handled_blocks := rfl
  active_sent := by simp [idle, Runner.idle]
  active_open := by simp [idle, Runner.idle]
  handled_sent := by simp [idle, handledOf]
  sent_ends := by simp [idle, EndsOnce]
  shown_handled := rfl

/-- The messages handled are from runs that were launched. -/
theorem Invariant.handled_launched {s : Supervision} (hinv : Invariant s) :
    ∀ envelope ∈ s.handled, 1 ≤ envelope.run ∧ envelope.run ≤ s.runner.launched := by
  intro envelope hmem
  rw [hinv.handled_blocks, List.mem_flatMap] at hmem
  obtain ⟨i, hi, hmem⟩ := hmem
  have hrun := (List.mem_filter.mp hmem).2
  rw [decide_eq_true_eq] at hrun
  rw [List.mem_range] at hi
  omega

/-- A message behind which nothing may be sent is the last of its run. -/
theorem EndsOnce.append {messages : List RunMessage} (hopen : ∀ message ∈ messages, ¬ IsEnd message)
    (message : RunMessage) : EndsOnce (messages ++ [message]) := by
  intro front last back heq hend
  rcases List.eq_nil_or_concat back with hnil | ⟨init, x, rfl⟩
  · exact hnil
  · have hmem : last ∈ messages := by
      have hsplit : messages ++ [message] = (front ++ last :: init) ++ [x] := by
        rw [heq]
        simp
      rw [(List.append_inj' hsplit rfl).1]
      simp
    exact absurd hend (hopen last hmem)

theorem Invariant.send {s : Supervision} (hinv : Invariant s) {envelope : Envelope}
    (hmay : s.MaySend envelope) : Invariant (s.send envelope) where
  active_latest := hinv.active_latest
  channel_launched := by
    intro other hmem
    rcases List.mem_append.mp hmem with hold | hnew
    · exact hinv.channel_launched other hold
    · rw [List.mem_singleton.mp hnew]
      exact ⟨hmay.1, hmay.2.1⟩
  sent_launched := by
    intro run hrun
    have hrun' : s.runner.launched < run := hrun
    have hne : envelope.run ≠ run := by
      have := hmay.2.1
      omega
    rw [sent_send, if_neg hne, hinv.sent_launched run hrun', List.append_nil]
  handled_blocks := hinv.handled_blocks
  active_sent := by
    intro run hactive
    rw [sent_send, waitingOf_send, handledOf_send, hinv.active_sent run hactive,
      List.append_assoc]
  active_open := hinv.active_open
  handled_sent := by
    intro run
    rw [sent_send, handledOf_send]
    exact (hinv.handled_sent run).trans (List.prefix_append _ _)
  sent_ends := by
    intro run
    rw [sent_send]
    by_cases hrun : envelope.run = run
    · subst hrun
      rw [if_pos rfl]
      exact EndsOnce.append hmay.2.2 envelope.message
    · rw [if_neg hrun, List.append_nil]
      exact hinv.sent_ends run
  shown_handled := hinv.shown_handled

/-- The blocks of the messages handled when one of the latest run is added. -/
theorem handled_blocks_append {handled : List Envelope} {launched : Nat} {envelope : Envelope}
    (hblocks : handled = (List.range launched).flatMap fun i =>
      handled.filter fun envelope => envelope.run = i + 1)
    (hrun : envelope.run = launched) (hpos : 1 ≤ envelope.run) :
    handled ++ [envelope] = (List.range launched).flatMap fun i =>
      (handled ++ [envelope]).filter fun envelope => envelope.run = i + 1 := by
  obtain ⟨n, rfl⟩ : ∃ n, launched = n + 1 := ⟨launched - 1, by omega⟩
  have hearlier : (List.range n).flatMap (fun i =>
      (handled ++ [envelope]).filter fun envelope => envelope.run = i + 1) =
      (List.range n).flatMap fun i => handled.filter fun envelope => envelope.run = i + 1 := by
    refine List.flatMap_congr ?_
    intro i hi
    rw [List.mem_range] at hi
    have hne : ¬ envelope.run = i + 1 := by omega
    rw [List.filter_append]
    simp [hne]
  rw [List.range_succ, List.flatMap_append] at hblocks ⊢
  rw [List.flatMap_singleton] at hblocks ⊢
  rw [hearlier, List.filter_append]
  have hlast : [envelope].filter (fun envelope => envelope.run = n + 1) = [envelope] := by
    simp [hrun]
  rw [hlast, ← List.append_assoc, ← hblocks]

/--
Handling the first message of the channel keeps the invariant: a message of the active
run joins those handled of the latest run, and another one only leaves the channel.
-/
theorem Invariant.handleNext {s : Supervision} (hinv : Invariant s) {envelope : Envelope}
    {rest : List Envelope} (hchannel : s.runner.channel = envelope :: rest) :
    Invariant (s.handleNext envelope rest) := by
  obtain ⟨hcolors, hlaunched, hrest⟩ := handleNext_keeps s envelope rest
  -- A message of an active run only moves from those that wait to those handled.
  have hsent : ∀ run, s.runner.active = some run → s.sent run =
      (s.handleNext envelope rest).handledOf run ++
        (s.handleNext envelope rest).waitingOf run := by
    intro run hrun
    have hwaiting : (s.handleNext envelope rest).waitingOf run =
        (rest.filter fun envelope => envelope.run = run).map Envelope.message := by
      unfold waitingOf
      rw [hrest]
    rw [hinv.active_sent run hrun, waitingOf_cons hchannel, handledOf_handleNext, hwaiting,
      List.append_assoc]
    simp only [hrun, true_and]
  exact {
    active_latest := by
      intro run hrun
      rw [hlaunched]
      exact hinv.active_latest run (active_of_handleNext hrun).1
    channel_launched := by
      intro other hmem
      rw [hrest] at hmem
      rw [hlaunched]
      apply hinv.channel_launched
      rw [hchannel]
      exact List.mem_cons_of_mem _ hmem
    sent_launched := by
      rw [hlaunched]
      exact hinv.sent_launched
    handled_blocks := by
      rw [hlaunched]
      by_cases hactive : s.runner.active = some envelope.run
      · have hhandled : (s.handleNext envelope rest).handled = s.handled ++ [envelope] :=
          if_pos hactive
        obtain ⟨hlatest, hpos⟩ := hinv.active_latest envelope.run hactive
        rw [hhandled]
        exact handled_blocks_append hinv.handled_blocks hlatest hpos
      · rw [handleNext_of_active_ne rest hactive]
        exact hinv.handled_blocks
    active_sent := fun run hrun => hsent run (active_of_handleNext hrun).1
    active_open := by
      intro run hrun message hmem
      obtain ⟨hactive, hopen⟩ := active_of_handleNext hrun
      rw [handledOf_handleNext, List.mem_append] at hmem
      rcases hmem with hold | hnew
      · exact hinv.active_open run hactive message hold
      · by_cases hrun : envelope.run = run
        · rw [if_pos ⟨hactive, hrun⟩, List.mem_singleton] at hnew
          exact hnew ▸ hopen hrun
        · rw [if_neg fun h => hrun h.2] at hnew
          cases hnew
    handled_sent := by
      intro run
      by_cases hactive : s.runner.active = some run
      · have hsame : (s.handleNext envelope rest).sent run = s.sent run := rfl
        rw [hsame, hsent run hactive]
        exact List.prefix_append _ _
      · rw [handledOf_handleNext, if_neg fun h => hactive h.1, List.append_nil]
        exact hinv.handled_sent run
    sent_ends := hinv.sent_ends
    shown_handled := by
      have hold := hinv.shown_handled
      have hreturned : (s.handleNext envelope rest).returned = s.returned := rfl
      rw [shown_append] at hold
      rw [shown_append, hreturned, shown_handleNext, hcolors, ← List.append_assoc, hold]
      by_cases hactive : s.runner.active = some envelope.run
      · have hhandled : (s.handleNext envelope rest).handled = s.handled ++ [envelope] :=
          if_pos hactive
        rw [hhandled, if_pos hactive, List.flatMap_append, List.flatMap_singleton]
      · rw [handleNext_of_active_ne rest hactive, if_neg hactive, List.append_nil]
        rfl }

/-- A call that launches nothing and shows nothing keeps the invariant. -/
theorem Invariant.withRunner {s : Supervision} (hinv : Invariant s) {runner : Runner}
    (hactive : runner.active = none ∨ runner.active = s.runner.active)
    (hlaunched : runner.launched = s.runner.launched) (hchannel : runner.channel = s.runner.channel)
    (hcolors : runner.colors = s.runner.colors)
    (hshown : shown runner.pending = shown s.runner.pending) :
    Invariant (s.withRunner runner) := by
  have hactive' : ∀ run, runner.active = some run → s.runner.active = some run := by
    intro run hrun
    rcases hactive with hnone | hsame
    · rw [hnone] at hrun
      cases hrun
    · exact hsame ▸ hrun
  exact {
    active_latest := by
      intro run hrun
      have hlatest := hinv.active_latest run (hactive' run hrun)
      rw [← hlaunched] at hlatest
      exact hlatest
    channel_launched := by
      intro envelope hmem
      have hmem' : envelope ∈ runner.channel := hmem
      rw [hchannel] at hmem'
      have hbound := hinv.channel_launched envelope hmem'
      rw [← hlaunched] at hbound
      exact hbound
    sent_launched := by
      intro run hrun
      have hrun' : runner.launched < run := hrun
      rw [hlaunched] at hrun'
      exact hinv.sent_launched run hrun'
    handled_blocks := by
      have hblocks := hinv.handled_blocks
      rw [← hlaunched] at hblocks
      exact hblocks
    active_sent := by
      intro run hrun
      have hsent := hinv.active_sent run (hactive' run hrun)
      unfold waitingOf at hsent
      rw [← hchannel] at hsent
      exact hsent
    active_open := fun run hrun => hinv.active_open run (hactive' run hrun)
    handled_sent := hinv.handled_sent
    sent_ends := hinv.sent_ends
    shown_handled := by
      have hold := hinv.shown_handled
      rw [shown_append, ← hshown, ← hcolors, ← shown_append] at hold
      exact hold }

/-- Nothing was handled of a run that was not launched. -/
theorem Invariant.filter_handled {s : Supervision} (hinv : Invariant s) {run : Nat}
    (hrun : s.runner.launched < run) :
    s.handled.filter (fun envelope => envelope.run = run) = [] := by
  rw [List.filter_eq_nil_iff]
  intro envelope hmem
  have hbound := (hinv.handled_launched envelope hmem).2
  rw [decide_eq_true_eq]
  omega

theorem Invariant.handledOf_eq_nil {s : Supervision} (hinv : Invariant s) {run : Nat}
    (hrun : s.runner.launched < run) : s.handledOf run = [] := by
  unfold handledOf
  rw [hinv.filter_handled hrun, List.map_nil]

/-- Nothing waits of a run that was not launched. -/
theorem Invariant.waitingOf_eq_nil {s : Supervision} (hinv : Invariant s) {run : Nat}
    (hrun : s.runner.launched < run) : s.waitingOf run = [] := by
  have hwaiting : s.runner.channel.filter (fun envelope => envelope.run = run) = [] := by
    rw [List.filter_eq_nil_iff]
    intro envelope hmem
    have hbound := (hinv.channel_launched envelope hmem).2
    rw [decide_eq_true_eq]
    omega
  unfold waitingOf
  rw [hwaiting, List.map_nil]

/-- A run that is launched has sent nothing yet, and nothing of it was handled. -/
theorem Invariant.launch {s : Supervision} (hinv : Invariant s) :
    Invariant (s.withRunner (s.runner.start (.ok ())).2) := by
  have hnext : s.runner.launched < s.runner.launched + 1 := Nat.lt_succ_self _
  have hnumber : ∀ run, (s.withRunner (s.runner.start (.ok ())).2).runner.active = some run →
      run = s.runner.launched + 1 := by
    intro run hrun
    exact (Option.some.inj hrun).symm
  exact {
    active_latest := by
      intro run hrun
      rw [hnumber run hrun]
      exact ⟨rfl, by omega⟩
    channel_launched := by
      intro envelope hmem
      have hbound := hinv.channel_launched envelope hmem
      exact ⟨hbound.1, Nat.le_succ_of_le hbound.2⟩
    sent_launched := by
      intro run hrun
      have hrun' : s.runner.launched + 1 < run := hrun
      exact hinv.sent_launched run (by omega)
    handled_blocks := by
      have hblocks := hinv.handled_blocks
      have hlast : (List.range (s.runner.launched + 1)).flatMap
          (fun i => s.handled.filter fun envelope => envelope.run = i + 1) = s.handled := by
        rw [List.range_succ, List.flatMap_append, List.flatMap_singleton, ← hblocks,
          hinv.filter_handled hnext, List.append_nil]
      exact hlast.symm
    active_sent := by
      intro run hrun
      rw [hnumber run hrun]
      have hall : s.sent (s.runner.launched + 1) =
          s.handledOf (s.runner.launched + 1) ++ s.waitingOf (s.runner.launched + 1) := by
        rw [hinv.sent_launched _ hnext, hinv.handledOf_eq_nil hnext, hinv.waitingOf_eq_nil hnext,
          List.append_nil]
      exact hall
    active_open := by
      intro run hrun message hmem
      rw [hnumber run hrun] at hmem
      have hmem' : message ∈ s.handledOf (s.runner.launched + 1) := hmem
      rw [hinv.handledOf_eq_nil hnext] at hmem'
      cases hmem'
    handled_sent := hinv.handled_sent
    sent_ends := hinv.sent_ends
    shown_handled := hinv.shown_handled }

/-- Every move keeps the invariant. -/
theorem Invariant.move {s t : Supervision} (hinv : Invariant s) (hmove : Move s t) :
    Invariant t := by
  cases hmove with
  | send hmay => exact hinv.send hmay
  | handle hchannel => exact hinv.handleNext hchannel
  | run launch =>
    cases launch with
    | error cause => exact hinv.withRunner (Or.inl rfl) rfl rfl rfl rfl
    | ok launched => exact hinv.launch
  | stop => exact hinv.withRunner (Or.inl rfl) rfl rfl rfl rfl
  | clearOutput =>
    refine hinv.withRunner (Or.inr rfl) rfl rfl rfl ?_
    have hpending : s.runner.clearOutput.pending = s.runner.pending ++ s.runner.log.clear.2 := rfl
    rw [hpending, shown_append, shown_clear, List.append_nil]
  | handOut =>
    exact {
      active_latest := hinv.active_latest
      channel_launched := hinv.channel_launched
      sent_launched := hinv.sent_launched
      handled_blocks := hinv.handled_blocks
      active_sent := hinv.active_sent
      active_open := hinv.active_open
      handled_sent := hinv.handled_sent
      sent_ends := hinv.sent_ends
      shown_handled := by
        have hold := hinv.shown_handled
        have hout : s.handOut.returned ++ s.handOut.runner.pending =
            s.returned ++ s.runner.pending := List.append_nil _
        rw [hout]
        exact hold }

/-- Any number of moves keep the invariant. -/
theorem Invariant.moves {s t : Supervision} (hinv : Invariant s) (hmoves : Moves s t) :
    Invariant t := by
  induction hmoves with
  | refl => exact hinv
  | tail _ hmove ih => exact ih.move hmove

/-- The colors stay what they are. -/
theorem Move.colors_eq {s t : Supervision} (hmove : Move s t) :
    t.runner.colors = s.runner.colors := by
  cases hmove with
  | send hmay => rfl
  | handle hchannel => exact (handleNext_keeps _ _ _).1
  | run launch =>
    cases launch with
    | error cause => rfl
    | ok launched => rfl
  | stop => rfl
  | clearOutput => rfl
  | handOut => rfl

theorem Moves.colors_eq {s t : Supervision} (hmoves : Moves s t) :
    t.runner.colors = s.runner.colors := by
  induction hmoves with
  | refl => rfl
  | tail _ hmove ih => exact hmove.colors_eq.trans ih

/-! ## The calls of the host as moves -/

theorem Drain.moves {s t : Supervision} (h : Drain s t) : Moves s t := by
  induction h with
  | done hchannel => exact Relation.ReflTransGen.refl
  | handle hchannel _ ih => exact Relation.ReflTransGen.head (Move.handle hchannel) ih
  | send hmay _ ih => exact Relation.ReflTransGen.head (Move.send hmay) ih

theorem Wait.moves {s t : Supervision} (h : Wait s t) : Moves s t := by
  induction h with
  | skip hskip => exact Relation.ReflTransGen.refl
  | timeout hchannel => exact Relation.ReflTransGen.refl
  | handle _ _ hchannel => exact Relation.ReflTransGen.single (Move.handle hchannel)
  | send hmay _ ih => exact Relation.ReflTransGen.head (Move.send hmay) ih

/-- A step is some moves, whatever the supervisors send meanwhile. -/
theorem Step.moves {s t : Supervision} (h : Step s t) : Moves s t := by
  cases h with
  | send hmay => exact Relation.ReflTransGen.single (Move.send hmay)
  | run launch => exact Relation.ReflTransGen.single (Move.run s launch)
  | stop => exact Relation.ReflTransGen.single (Move.stop s)
  | clearOutput => exact Relation.ReflTransGen.single (Move.clearOutput s)
  | pump hdrain => exact hdrain.moves.tail (Move.handOut _)
  | pumpTimeout hwait hdrain => exact (hwait.moves.trans hdrain.moves).tail (Move.handOut _)

/-- What is reached in steps is reached in moves. -/
theorem Reachable.moves {colors : OutputColors} {maxOutputChars : Nat} {s : Supervision}
    (h : Reachable colors maxOutputChars s) : Moves (idle colors maxOutputChars) s := by
  induction h with
  | refl => exact Relation.ReflTransGen.refl
  | tail _ hstep ih => exact ih.trans hstep.moves

theorem invariant_of_reachable {colors : OutputColors} {maxOutputChars : Nat} {s : Supervision}
    (h : Reachable colors maxOutputChars s) : Invariant s :=
  (invariant_idle colors maxOutputChars).moves h.moves

/-- Between two calls of the host no chunk waits to be handed out. -/
theorem shown_pending_of_reachable {colors : OutputColors} {maxOutputChars : Nat}
    {s : Supervision} (h : Reachable colors maxOutputChars s) :
    shown s.runner.pending = [] := by
  induction h with
  | refl => rfl
  | @tail t u _ hstep ih =>
    cases hstep with
    | send hmay => exact ih
    | run launch =>
      cases launch with
      | error cause => exact ih
      | ok launched => exact ih
    | stop => exact ih
    | clearOutput =>
      have hpending : t.runner.clearOutput.pending = t.runner.pending ++ t.runner.log.clear.2 := rfl
      have hcall : shown (t.withRunner t.runner.clearOutput).runner.pending =
          shown t.runner.clearOutput.pending := rfl
      rw [hcall, hpending, shown_append, ih, shown_clear, List.append_nil]
    | pump hdrain => rfl
    | pumpTimeout hwait hdrain => rfl

/-! ## Emptying the channel at once -/

/-- The end of a run leaves the channel alone. -/
theorem finish_channel (runner : Runner) (channel : List Envelope) (code : Option Int)
    (report : Text) :
    { runner with channel := channel }.finish code report =
      { runner.finish code report with channel := channel } := by
  unfold Runner.finish
  -- What the report renders to is of no matter here, and must not be computed.
  generalize renderReport report = render
  rfl

/-- Handling a message does not look at the messages behind it. -/
theorem handle_channel (runner : Runner) (channel : List Envelope) (envelope : Envelope) :
    { runner with channel := channel }.handle envelope =
      { runner.handle envelope with channel := channel } := by
  obtain ⟨run, message⟩ := envelope
  by_cases hactive : runner.active = some run
  · unfold Runner.handle
    rw [if_pos hactive, if_pos hactive]
    cases message with
    | printed text => rfl
    | exited code report => exact finish_channel runner channel code report
  · have hsame : runner.handle ⟨run, message⟩ = runner := Runner.handle_of_active_ne hactive
    rw [hsame]
    exact Runner.handle_of_active_ne hactive

/-- Handling all messages starts with the first one. -/
theorem handleAll_cons (runner : Runner) (envelope : Envelope) (rest : List Envelope) :
    { runner with channel := envelope :: rest }.handleAll =
      { runner.handle envelope with channel := rest }.handleAll := by
  have hfirst : { runner with channel := envelope :: rest }.handleAll =
      rest.foldl Runner.handle ({ runner with channel := [] }.handle envelope) := rfl
  rw [hfirst, handle_channel]
  rfl

/--
Emptying the channel while messages arrive comes to the runner that handles at once what
stood in the channel and what arrived.
-/
theorem Drain.runner_eq {s t : Supervision} (h : Drain s t) :
    ∃ late : List Envelope,
      t.runner = { s.runner with channel := s.runner.channel ++ late }.handleAll := by
  induction h with
  | @done s hchannel =>
    refine ⟨[], ?_⟩
    have hsame : s.runner = { s.runner with channel := [] } := by
      rw [← hchannel]
    rw [hchannel]
    exact hsame
  | @handle s t envelope rest hchannel _ ih =>
    obtain ⟨late, hlate⟩ := ih
    refine ⟨late, ?_⟩
    have hnext : (s.handleNext envelope rest).runner =
        { s.runner.handle envelope with channel := rest } := handle_channel s.runner rest envelope
    rw [hlate, hnext, hchannel, List.cons_append, handleAll_cons]
  | @send s t envelope hmay _ ih =>
    obtain ⟨late, hlate⟩ := ih
    refine ⟨envelope :: late, ?_⟩
    have hsent : (s.send envelope).runner.channel ++ late =
        s.runner.channel ++ envelope :: late := by
      have hchannel : (s.send envelope).runner.channel = s.runner.channel ++ [envelope] := rfl
      rw [hchannel, List.append_assoc, List.singleton_append]
    rw [hlate, hsent]
    rfl

/-- The host is given what `Runner.pump` gives it when all that arrived stands in the channel. -/
theorem Drain.pump_eq {s t : Supervision} (h : Drain s t) :
    ∃ late : List Envelope,
      t.handOut.runner = ({ s.runner with channel := s.runner.channel ++ late }.pump).2 ∧
      t.runner.pending = ({ s.runner with channel := s.runner.channel ++ late }.pump).1 := by
  obtain ⟨late, hlate⟩ := h.runner_eq
  refine ⟨late, ?_, ?_⟩
  · have hout : t.handOut.runner = { t.runner with pending := [] } := rfl
    rw [hout, hlate]
    rfl
  · rw [hlate]
    rfl

end Supervision

end ScratchEditor

import ScratchEditor.Proofs.Run.Supervision

/-!
# What the runs show

The host is given one block of chunks for each run, in the order in which the runs
were started.  A block shows the beginning of what its run has sent, and the line
about the exit code stands in it once, at its end, if the end of the run was
handled while the run was active.  A run that is over shows nothing more.

Main definitions:

- `Supervision.printedChunks` and `Supervision.reportChunks`: the parts of a block.
- `Supervision.Over`: a run was stopped or replaced, or it ended.

Main results:

- `Supervision.Invariant.block_cases`: what a block consists of.
- `Supervision.shown_returned`: the host is given the blocks in turn.
- `Supervision.Over.moves`: a run that is over stays so and keeps its block.
- `Supervision.blocks_of_reachable`: all of it for every order of calls and messages.
-/

namespace ScratchEditor

namespace Supervision

/-! ## The parts of a block -/

/-- What a run has printed, as it is shown. -/
def printedChunks (colors : OutputColors) (texts : List Text) : List Chunk :=
  (texts.map fun text => Chunk.output text colors).filter fun chunk => !chunk.isEmpty

/-- What the report of a run has to say; a report without text is not shown. -/
def reportChunks (colors : OutputColors) (report : Text) : List Chunk :=
  [(renderReport report colors).1].filter fun chunk => !chunk.isEmpty

/-- Messages that are shown in turn are what was printed, and then perhaps an end. -/
theorem EndsOnce.cases {messages : List RunMessage} (hends : EndsOnce messages) :
    (∃ texts : List Text, messages = texts.map RunMessage.printed) ∨
    ∃ (texts : List Text) (code : Option Int) (report : Text),
      messages = texts.map RunMessage.printed ++ [.exited code report] := by
  induction messages with
  | nil => exact Or.inl ⟨[], rfl⟩
  | cons message rest ih =>
    cases message with
    | exited code report =>
      have hnil : rest = [] := hends [] (.exited code report) rest rfl ⟨code, report, rfl⟩
      rw [hnil]
      exact Or.inr ⟨[], code, report, rfl⟩
    | printed text =>
      have hrest : EndsOnce rest := by
        intro front last back heq hend
        exact hends (.printed text :: front) last back (by rw [heq, List.cons_append]) hend
      rcases ih hrest with ⟨texts, heq⟩ | ⟨texts, code, report, heq⟩
      · exact Or.inl ⟨text :: texts, by rw [heq, List.map_cons]⟩
      · exact Or.inr ⟨text :: texts, code, report, by rw [heq, List.map_cons, List.cons_append]⟩

/-- A beginning of messages that end once ends once. -/
theorem EndsOnce.of_begins {front messages : List RunMessage} (hends : EndsOnce messages)
    (hfront : front <+: messages) : EndsOnce front := by
  obtain ⟨later, rfl⟩ := hfront
  intro before last back heq hend
  have hall := hends before last (back ++ later) (by rw [heq, List.append_assoc]; rfl) hend
  exact (List.append_eq_nil_iff.mp hall).1

theorem flatMap_rendering_printed (colors : OutputColors) (texts : List Text) :
    (texts.map RunMessage.printed).flatMap (RunMessage.rendering colors) =
      printedChunks colors texts := by
  induction texts with
  | nil => rfl
  | cons text rest ih =>
    have hfirst : printedChunks colors (text :: rest) =
        (RunMessage.printed text).rendering colors ++ printedChunks colors rest := by
      have hcons : text :: rest = [text] ++ rest := rfl
      unfold printedChunks
      rw [hcons, List.map_append, List.filter_append]
      rfl
    rw [List.map_cons, List.flatMap_cons, ih, hfirst]

/--
What was handled of a run is a beginning of what it printed, or all of that and its end.
Its block has a line about an exit code in the second case only, and there as its last chunk.
-/
theorem Invariant.block_cases {s : Supervision} (hinv : Invariant s) (run : Nat) :
    (∃ texts : List Text,
      s.handledOf run = texts.map RunMessage.printed ∧
      s.block run = printedChunks s.runner.colors texts) ∨
    ∃ (texts : List Text) (code : Option Int) (report : Text),
      s.handledOf run = texts.map RunMessage.printed ++ [.exited code report] ∧
      s.block run = printedChunks s.runner.colors texts ++
        reportChunks s.runner.colors report ++
        [Chunk.exit (code.getD signalledCode) s.runner.colors] := by
  have hends : EndsOnce (s.handledOf run) :=
    (hinv.sent_ends run).of_begins (hinv.handled_sent run)
  unfold block
  rcases hends.cases with ⟨texts, heq⟩ | ⟨texts, code, report, heq⟩
  · rw [heq]
    exact Or.inl ⟨texts, rfl, flatMap_rendering_printed s.runner.colors texts⟩
  · rw [heq]
    refine Or.inr ⟨texts, code, report, rfl, ?_⟩
    rw [List.flatMap_append, flatMap_rendering_printed, List.flatMap_singleton,
      rendering_exited, ← List.append_assoc]
    rfl

/-- The host was given the blocks of the runs in the order in which they were started. -/
theorem shown_returned {colors : OutputColors} {maxOutputChars : Nat} {s : Supervision}
    (h : Reachable colors maxOutputChars s) :
    shown s.returned = (List.range s.runner.launched).flatMap fun i => s.block (i + 1) := by
  have hinv := invariant_of_reachable h
  have hshown := hinv.shown_handled
  rw [shown_append, shown_pending_of_reachable h, List.append_nil] at hshown
  rw [hshown, hinv.handled_blocks, List.flatMap_assoc]
  refine List.flatMap_congr ?_
  intro i _
  unfold block handledOf
  rw [List.flatMap_map]

/-! ## Runs that are over -/

/-- A run that was launched and is no longer active: it was stopped, replaced or it ended. -/
def Over (s : Supervision) (run : Nat) : Prop :=
  1 ≤ run ∧ run ≤ s.runner.launched ∧ s.runner.active ≠ some run

/-- When a runner is stopped, every run is over. -/
theorem over_stop {s : Supervision} {run : Nat} (hpos : 1 ≤ run)
    (hlaunched : run ≤ s.runner.launched) : (s.withRunner s.runner.stop).Over run := by
  refine ⟨hpos, hlaunched, ?_⟩
  intro heq
  cases heq

/-- When a run is started, whether this works or not, every earlier run is over. -/
theorem over_start {s : Supervision} {run : Nat} (hpos : 1 ≤ run)
    (hlaunched : run ≤ s.runner.launched) (launch : Except RunError Unit) :
    (s.withRunner (s.runner.start launch).2).Over run := by
  cases launch with
  | error cause =>
    refine ⟨hpos, hlaunched, ?_⟩
    intro heq
    cases heq
  | ok launched =>
    refine ⟨hpos, Nat.le_succ_of_le hlaunched, ?_⟩
    intro heq
    have hnumber : s.runner.launched + 1 = run := Option.some.inj heq
    omega

/-- A run is over once its end was handled. -/
theorem Invariant.over_of_exited {s : Supervision} (hinv : Invariant s) {run : Nat}
    {message : RunMessage} (hmem : message ∈ s.handledOf run) (hend : IsEnd message) :
    s.Over run := by
  obtain ⟨envelope, hhandled, rfl⟩ := List.mem_map.mp hmem
  obtain ⟨hhandled, hrun⟩ := List.mem_filter.mp hhandled
  rw [decide_eq_true_eq] at hrun
  obtain ⟨hpos, hlaunched⟩ := hinv.handled_launched envelope hhandled
  rw [hrun] at hpos hlaunched
  refine ⟨hpos, hlaunched, ?_⟩
  intro hactive
  exact hinv.active_open run hactive envelope.message hmem hend

/-- A run that is over stays so, and nothing more of it is handled. -/
theorem Over.move {s t : Supervision} {run : Nat} (hover : s.Over run) (hmove : Move s t) :
    t.Over run ∧ t.handledOf run = s.handledOf run := by
  have ⟨hpos, hlaunched, hactive⟩ := hover
  cases hmove with
  | send hmay => exact ⟨⟨hpos, hlaunched, hactive⟩, rfl⟩
  | @handle envelope rest hchannel =>
    have hsame := (handleNext_keeps s envelope rest).2.1
    refine ⟨⟨hpos, hsame ▸ hlaunched, fun hrun => hactive (active_of_handleNext hrun).1⟩, ?_⟩
    rw [handledOf_handleNext, if_neg fun h => hactive h.1, List.append_nil]
  | run launch => exact ⟨over_start hpos hlaunched launch, rfl⟩
  | stop => exact ⟨over_stop hpos hlaunched, rfl⟩
  | clearOutput => exact ⟨⟨hpos, hlaunched, hactive⟩, rfl⟩
  | handOut => exact ⟨⟨hpos, hlaunched, hactive⟩, rfl⟩

/-- A run that is over stays so in any number of moves, and its block stays the same. -/
theorem Over.moves {s t : Supervision} {run : Nat} (hover : s.Over run) (hmoves : Moves s t) :
    t.Over run ∧ t.handledOf run = s.handledOf run ∧ t.block run = s.block run := by
  have hkept : t.Over run ∧ t.handledOf run = s.handledOf run := by
    induction hmoves with
    | refl => exact ⟨hover, rfl⟩
    | tail _ hmove ih =>
      obtain ⟨hover', hhandled⟩ := ih
      obtain ⟨hover'', hhandled'⟩ := hover'.move hmove
      exact ⟨hover'', hhandled'.trans hhandled⟩
  refine ⟨hkept.1, hkept.2, ?_⟩
  unfold block
  rw [hkept.2, hmoves.colors_eq]

/-! ## Every order of calls and messages -/

/--
Whatever the host calls and whenever supervisors send: the host is given one block for
each run, in the order in which they were started.  What was handled of a run while it
was active is a beginning of what it has sent; the block shows that, and ends with the
line about the exit code exactly if the end of the run is among it.  A run that was
stopped, replaced or has ended is over; at every later moment, also between two messages
of one call, its block is the same and a message of it changes nothing in the runner.
-/
theorem blocks_of_reachable {colors : OutputColors} {maxOutputChars : Nat} {s : Supervision}
    (h : Reachable colors maxOutputChars s) :
    shown s.returned = (List.range s.runner.launched).flatMap (fun i => s.block (i + 1)) ∧
    (∀ run, s.handledOf run <+: s.sent run ∧
      ((∃ texts : List Text,
        s.handledOf run = texts.map RunMessage.printed ∧
        s.block run = printedChunks colors texts) ∨
      ∃ (texts : List Text) (code : Option Int) (report : Text),
        s.handledOf run = texts.map RunMessage.printed ++ [.exited code report] ∧
        s.block run = printedChunks colors texts ++ reportChunks colors report ++
          [Chunk.exit (code.getD signalledCode) colors])) ∧
    (∀ run, 1 ≤ run → run ≤ s.runner.launched →
      (s.withRunner s.runner.stop).Over run ∧
      (∀ launch, (s.withRunner (s.runner.start launch).2).Over run) ∧
      ((∃ message ∈ s.handledOf run, IsEnd message) → s.Over run)) ∧
    ∀ run t u, Moves s t → t.Over run → Moves t u →
      u.Over run ∧ u.handledOf run = t.handledOf run ∧ u.block run = t.block run ∧
      ∀ message, u.runner.handle ⟨run, message⟩ = u.runner := by
  have hinv := invariant_of_reachable h
  have hcolors : s.runner.colors = colors := h.moves.colors_eq
  refine ⟨shown_returned h, ?_, ?_, ?_⟩
  · intro run
    have hcases := hinv.block_cases run
    rw [hcolors] at hcases
    exact ⟨hinv.handled_sent run, hcases⟩
  · intro run hpos hlaunched
    refine ⟨over_stop hpos hlaunched, over_start hpos hlaunched, ?_⟩
    rintro ⟨message, hmem, hend⟩
    exact hinv.over_of_exited hmem hend
  · intro run t u _ hover hmoves
    obtain ⟨hover', hhandled, hblock⟩ := hover.moves hmoves
    refine ⟨hover', hhandled, hblock, ?_⟩
    intro message
    exact Runner.handle_of_active_ne hover'.2.2

/--
A first run prints three times.  Its second message still waits when a second run replaces
it, its third is sent even later, and then the second run ends without a word.
-/
def replaced : Supervision :=
  let s := idle .standard 10
  let s := s.withRunner (s.runner.start (.ok ())).2
  let s := ((s.send ⟨1, .printed ['a']⟩).handleNext ⟨1, .printed ['a']⟩ []).handOut
  let s := s.send ⟨1, .printed ['b']⟩
  let s := s.withRunner (s.runner.start (.ok ())).2
  let s := (s.send ⟨1, .printed ['c']⟩).send ⟨2, .exited (some 0) []⟩
  let s := s.handleNext ⟨1, .printed ['b']⟩ [⟨1, .printed ['c']⟩, ⟨2, .exited (some 0) []⟩]
  let s := s.handleNext ⟨1, .printed ['c']⟩ [⟨2, .exited (some 0) []⟩]
  (s.handleNext ⟨2, .exited (some 0) []⟩ []).handOut

theorem reachable_replaced : Reachable .standard 10 replaced := by
  have hopen : ∀ text : Text, ¬ IsEnd (.printed text) := by
    rintro text ⟨code, report, heq⟩
    cases heq
  have hfirst := Relation.ReflTransGen.single (Step.run (idle .standard 10) (.ok ()))
  have hsent := hfirst.tail (@Step.send _ ⟨1, .printed ['a']⟩
    ⟨Nat.le_refl 1, Nat.le_refl 1, by
      intro message hmem
      cases hmem⟩)
  have hpump := hsent.tail (Step.pump (Drain.handle rfl (Drain.done rfl)))
  have hlate := hpump.tail (@Step.send _ ⟨1, .printed ['b']⟩
    ⟨Nat.le_refl 1, Nat.le_refl 1, by
      intro message hmem
      rw [List.mem_singleton.mp hmem]
      exact hopen _⟩)
  have hsecond := hlate.tail (Step.run _ (.ok ()))
  have hstale := hsecond.tail (@Step.send _ ⟨1, .printed ['c']⟩
    ⟨Nat.le_refl 1, Nat.le_succ 1, by
      intro message hmem
      rcases List.mem_cons.mp hmem with rfl | hmem
      · exact hopen _
      · rw [List.mem_singleton.mp hmem]
        exact hopen _⟩)
  have hend := hstale.tail (@Step.send _ ⟨2, .exited (some 0) []⟩
    ⟨Nat.le_succ 1, Nat.le_refl 2, by
      intro message hmem
      cases hmem⟩)
  exact hend.tail (Step.pump (Drain.handle rfl (Drain.handle rfl (Drain.handle rfl
    (Drain.done rfl)))))

/-- The replaced run showed its first message only, and no other message of it has an effect. -/
theorem blocks_of_replaced :
    Reachable .standard 10 replaced ∧ replaced.Over 1 ∧
    replaced.sent 1 = [.printed ['a'], .printed ['b'], .printed ['c']] ∧
    replaced.handledOf 1 = [.printed ['a']] ∧
    shown replaced.returned = [Chunk.output ['a'] .standard, Chunk.exit 0 .standard] ∧
    ∀ message, replaced.runner.handle ⟨1, message⟩ = replaced.runner := by
  obtain ⟨hshown, -, -, hover⟩ := blocks_of_reachable reachable_replaced
  have hover₁ : replaced.Over 1 := by
    refine ⟨Nat.le_refl 1, Nat.le_succ 1, ?_⟩
    intro hactive
    cases hactive
  have hhandled₁ : replaced.handledOf 1 = [.printed ['a']] := rfl
  have hhandled₂ : replaced.handledOf 2 = [.exited (some 0) []] := rfl
  have hcolors : replaced.runner.colors = .standard := rfl
  have hmessages := (hover 1 replaced replaced .refl hover₁ .refl).2.2.2
  refine ⟨reachable_replaced, hover₁, rfl, hhandled₁, ?_, hmessages⟩
  have hlaunched : replaced.runner.launched = 2 := rfl
  have hrange : List.range 2 = [0, 1] := rfl
  rw [hshown, hlaunched, hrange, List.flatMap_cons, List.flatMap_singleton]
  unfold block
  rw [hhandled₁, hhandled₂, hcolors, List.flatMap_singleton, List.flatMap_singleton,
    rendering_exited]
  rfl

end Supervision

end ScratchEditor

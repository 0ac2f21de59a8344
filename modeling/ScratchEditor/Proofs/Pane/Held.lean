import Mathlib.Data.List.Basic
import Mathlib.Tactic.SplitIfs
import ScratchEditor.Pane.Log

/-!
# What a pane holds

A log is called to append chunks and to clear the pane, and answers with the events that
change the pane.  It keeps a count and never sees the pane itself.  The count is that of the
pane all the same, so the log clears the pane before a chunk exactly if the pane then shows
more than the limit.

Main definitions:

- `PaneCall`: what is asked of a log.
- `PaneLog.answer` and `PaneLog.answerAll`: the log after calls, and the events.
- `PaneCall.changes`: the events that a call asks for, by what the pane shows.

Main results:

- `PaneLog.answer_of_held`: one call of a log that counts right.
- `PaneLog.answerAll_empty`: every run of calls on an empty pane.
-/

namespace ScratchEditor

/-! ## Panes -/

theorem replay_append (shown : Text) (earlier later : List PaneEvent) :
    replay shown (earlier ++ later) = replay (replay shown earlier) later :=
  List.foldl_append

/-- The text that an event brings into the pane. -/
def PaneEvent.text : PaneEvent → Text
  | append chunk => chunk.text
  | clear => []

/-- Every chunk among some events finds at most so many characters in the pane. -/
def FindsAtMost (limit : Nat) (shown : Text) (events : List PaneEvent) : Prop :=
  ∀ front chunk back, events = front ++ .append chunk :: back →
    (replay shown front).length ≤ limit

theorem findsAtMost_nil (limit : Nat) (shown : Text) : FindsAtMost limit shown [] := by
  intro front chunk back h
  simp at h

theorem findsAtMost_clear (limit : Nat) (shown : Text) : FindsAtMost limit shown [.clear] := by
  intro front chunk back h
  rcases List.cons_eq_append_iff.mp h with ⟨rfl, htail⟩ | ⟨front', rfl, htail⟩
  · cases htail
  · simp at htail

theorem findsAtMost_append {limit : Nat} {shown : Text} (h : shown.length ≤ limit)
    (chunk : Chunk) : FindsAtMost limit shown [.append chunk] := by
  intro front other back heq
  rcases List.cons_eq_append_iff.mp heq with ⟨rfl, -⟩ | ⟨front', rfl, htail⟩
  · exact h
  · simp at htail

/-- Events that follow others find the pane as those leave it. -/
theorem FindsAtMost.trans {limit : Nat} {shown : Text} {earlier later : List PaneEvent}
    (hearlier : FindsAtMost limit shown earlier)
    (hlater : FindsAtMost limit (replay shown earlier) later) :
    FindsAtMost limit shown (earlier ++ later) := by
  intro front chunk back h
  rcases List.append_eq_append_iff.mp h with ⟨middle, rfl, hsplit⟩ | ⟨middle, rfl, hsplit⟩
  · rw [replay_append]
    exact hlater middle chunk back hsplit
  · cases middle with
    | nil =>
      have hfound := hlater [] chunk back hsplit.symm
      rw [List.append_nil] at hfound
      exact hfound
    | cons event middle =>
      obtain ⟨rfl, -⟩ := List.cons.inj hsplit
      exact hearlier front chunk middle rfl

/--
If every chunk finds at most so many characters, then the pane is empty or holds at most the
chunk that came last more than that.
-/
theorem FindsAtMost.replay_eq_nil_or {limit : Nat} {events : List PaneEvent}
    (h : FindsAtMost limit [] events) :
    replay [] events = [] ∨ ∃ front chunk, events = front ++ [.append chunk] ∧
      (replay [] events).length ≤ limit + chunk.size := by
  rcases List.eq_nil_or_concat' events with rfl | ⟨front, event, rfl⟩
  · exact Or.inl rfl
  · cases event with
    | clear =>
      left
      rw [replay_append]
      rfl
    | append chunk =>
      right
      refine ⟨front, chunk, rfl, ?_⟩
      have hfound := h front chunk [] rfl
      have hshown : replay (replay [] front) [.append chunk] = replay [] front ++ chunk.text := rfl
      rw [replay_append, hshown, List.length_append]
      exact Nat.add_le_add_right hfound chunk.size

/-! ## Calls -/

/-- What is asked of a log. -/
inductive PaneCall
  | append (chunk : Chunk)
  | clear

namespace PaneCall

/-- The text that a call brings. -/
def text : PaneCall → Text
  | append chunk => chunk.text
  | clear => []

/--
The events that a call asks for when the pane shows a text.  A chunk with some text is
appended, after everything is cleared if the pane shows more than the limit.
-/
def changes (limit : Nat) (shown : Text) : PaneCall → List PaneEvent
  | clear => [.clear]
  | append chunk =>
    if chunk.text = [] then []
    else if limit < shown.length then [.clear, .append chunk]
    else [.append chunk]

/-- The pane is cleared by a call to clear it, and before a text if it is over the limit. -/
theorem clear_mem_changes_iff {limit : Nat} {shown : Text} {call : PaneCall} :
    .clear ∈ call.changes limit shown ↔
      call = .clear ∨ call.text ≠ [] ∧ limit < shown.length := by
  cases call with
  | clear => simp [changes]
  | append chunk =>
    by_cases hnil : chunk.text = []
    · simp [changes, text, hnil]
    · by_cases hover : limit < shown.length <;> simp [changes, text, hnil, hover]

/-- No text is lost and none is added. -/
theorem flatMap_text_changes (limit : Nat) (shown : Text) (call : PaneCall) :
    (call.changes limit shown).flatMap PaneEvent.text = call.text := by
  cases call with
  | clear => rfl
  | append chunk =>
    by_cases hnil : chunk.text = []
    · simp [changes, text, hnil]
    · by_cases hover : limit < shown.length <;>
        simp [changes, text, hnil, hover, PaneEvent.text]

/-- A chunk is appended to a pane that is not over the limit. -/
theorem findsAtMost_changes (limit : Nat) (shown : Text) (call : PaneCall) :
    FindsAtMost limit shown (call.changes limit shown) := by
  cases call with
  | clear => exact findsAtMost_clear limit shown
  | append chunk =>
    simp only [changes]
    split_ifs with hnil hover
    · exact findsAtMost_nil limit shown
    · exact (findsAtMost_clear limit shown).trans (findsAtMost_append (Nat.zero_le limit) chunk)
    · exact findsAtMost_append (Nat.le_of_not_lt hover) chunk

end PaneCall

namespace PaneLog

/-- The log after a call, and the events of the call. -/
def answer (log : PaneLog) : PaneCall → PaneLog × List PaneEvent
  | .append chunk => log.append chunk
  | .clear => log.clear

/-- The log after some calls, and the events of all of them in order. -/
def answerAll (log : PaneLog) : List PaneCall → PaneLog × List PaneEvent
  | [] => (log, [])
  | call :: rest =>
    let (next, events) := log.answer call
    let (last, more) := next.answerAll rest
    (last, events ++ more)

/-- A log that counts what the pane shows gives the events that the call asks for, and counts
what the pane shows then. -/
theorem answer_of_held {log : PaneLog} {shown : Text} (h : log.held = shown.length)
    (call : PaneCall) :
    log.answer call =
      (⟨log.limit, (replay shown (call.changes log.limit shown)).length⟩,
        call.changes log.limit shown) := by
  obtain ⟨limit, held⟩ := log
  dsimp only at h ⊢
  subst h
  cases call with
  | clear => rfl
  | append chunk =>
    have hempty : chunk.isEmpty = true ↔ chunk.text = [] := List.isEmpty_iff
    unfold answer append PaneCall.changes
    simp only [hempty]
    split_ifs with hnil hover
    · rfl
    · rfl
    · have hshown : replay shown [.append chunk] = shown ++ chunk.text := rfl
      rw [hshown, List.length_append]
      rfl

theorem answerAll_append (log : PaneLog) (earlier later : List PaneCall) :
    log.answerAll (earlier ++ later) =
      (((log.answerAll earlier).1.answerAll later).1,
        (log.answerAll earlier).2 ++ ((log.answerAll earlier).1.answerAll later).2) := by
  induction earlier generalizing log with
  | nil => rfl
  | cons call earlier ih =>
    rw [List.cons_append, answerAll, answerAll]
    dsimp only
    rw [ih, List.append_assoc]

/-- The log of a pane that shows a text, after any calls. -/
theorem answerAll_of_held {log : PaneLog} {shown : Text} (h : log.held = shown.length)
    (calls : List PaneCall) :
    (log.answerAll calls).1 = ⟨log.limit, (replay shown (log.answerAll calls).2).length⟩ ∧
      FindsAtMost log.limit shown (log.answerAll calls).2 ∧
      (log.answerAll calls).2.flatMap PaneEvent.text = calls.flatMap PaneCall.text := by
  induction calls generalizing log shown with
  | nil =>
    refine ⟨?_, findsAtMost_nil _ _, rfl⟩
    obtain ⟨limit, held⟩ := log
    exact congrArg (PaneLog.mk limit) h
  | cons call calls ih =>
    obtain ⟨hlog, hfinds, htext⟩ := @ih
      ⟨log.limit, (replay shown (call.changes log.limit shown)).length⟩ _ rfl
    rw [answerAll, answer_of_held h]
    dsimp only
    refine ⟨?_, (call.findsAtMost_changes log.limit shown).trans hfinds, ?_⟩
    · rw [replay_append]
      exact hlog
    · rw [List.flatMap_append, List.flatMap_cons, call.flatMap_text_changes, htext]

/--
After every run of calls on an empty pane the log counts what the pane shows, and one more call
gives the events that it asks for, which are none for an empty chunk.  Every chunk that was
appended found at most the limit in the pane, so the pane never shows more than the limit and
the chunk that came last.  The texts of the events are those of the chunks, in order.
-/
theorem answerAll_empty (limit : Nat) (calls : List PaneCall) :
    let log := ((empty limit).answerAll calls).1
    let events := ((empty limit).answerAll calls).2
    log.limit = limit ∧ log.held = (replay [] events).length ∧
      (∀ call, ((empty limit).answerAll (calls ++ [call])).2 =
        events ++ call.changes limit (replay [] events)) ∧
      (∀ call : PaneCall, .clear ∈ call.changes limit (replay [] events) ↔
        call = .clear ∨ call.text ≠ [] ∧ limit < (replay [] events).length) ∧
      (∀ chunk : Chunk, chunk.text = [] →
        (empty limit).answerAll (calls ++ [.append chunk]) = (log, events)) ∧
      (∀ front chunk back, events = front ++ .append chunk :: back →
        (replay [] front).length ≤ limit) ∧
      (∀ front back, events = front ++ back →
        replay [] front = [] ∨ ∃ earlier chunk, front = earlier ++ [.append chunk] ∧
          (replay [] front).length ≤ limit + chunk.size) ∧
      events.flatMap PaneEvent.text = calls.flatMap PaneCall.text := by
  intro log events
  obtain ⟨hlog, hfinds, htext⟩ := @answerAll_of_held (empty limit) [] rfl calls
  have hheld : log.held = (replay [] events).length := congrArg PaneLog.held hlog
  have hlimit : log.limit = limit := congrArg PaneLog.limit hlog
  have hnext (call : PaneCall) : (empty limit).answerAll (calls ++ [call]) =
      (⟨limit, (replay [] (events ++ call.changes limit (replay [] events))).length⟩,
        events ++ call.changes limit (replay [] events)) := by
    have hanswer := answer_of_held hheld call
    rw [hlimit] at hanswer
    rw [answerAll_append, answerAll, hanswer, replay_append]
    simp only [answerAll, List.append_nil]
    rfl
  refine ⟨hlimit, hheld, fun call => congrArg Prod.snd (hnext call),
    fun call => PaneCall.clear_mem_changes_iff, ?_, hfinds, ?_, htext⟩
  · intro chunk hnil
    have hnone : (PaneCall.append chunk).changes limit (replay [] events) = [] := if_pos hnil
    rw [hnext, hnone, List.append_nil]
    exact congrArg (·, events) hlog.symm
  · intro front back hsplit
    apply FindsAtMost.replay_eq_nil_or
    intro earlier chunk later heq
    refine hfinds earlier chunk (later ++ back) ?_
    have hevents : events = earlier ++ .append chunk :: (later ++ back) := by
      rw [hsplit, heq, List.append_assoc, List.cons_append]
    exact hevents

end PaneLog

end ScratchEditor

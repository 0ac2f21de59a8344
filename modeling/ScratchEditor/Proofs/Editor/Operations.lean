import ScratchEditor.Proofs.Editor.Painting

/-!
# Runs of a session

A host loads texts into a session, edits them, moves the caret and follows jump requests, in any
order.  The caret is moved in many ways, but each of them ends at most at the end of the text,
and the line feed that a session adds stands behind the caret.  So every operation finds the
caret inside the text and succeeds.

An operation either leaves the text alone or puts a text in place, which is then ended with a
line feed if the settings ask for one and it is missing.

Main definitions:

- `Operation`, `Session.operate` and `Session.operateAll`: what a host does with a session.
- `Operation.edits`: whether an operation puts a text in place.
- `Session.edited?`: the text that an operation puts in place.
- `Text.ended`: a text with the line feed that is missing at its end.

Main results:

- `Session.exists_operate`: what one operation makes of a session.
- `Session.operateAll_ofSettings`: what holds after every run of a new session.
-/

namespace ScratchEditor

/-! ## The line feed at the end -/

/-- A text, with the line feed that is missing at its end if one is kept there. -/
def Text.ended (keeps : Bool) (text : Text) : Text :=
  if keeps && text.getLast? != some '\n' then text ++ ['\n'] else text

namespace Text

/-- Ending a text makes it no shorter. -/
theorem length_le_ended (keeps : Bool) (text : Text) :
    text.length ≤ (text.ended keeps).length := by
  unfold ended
  split_ifs with hmissing
  · simp
  · exact Nat.le_refl _

/-- A text that is ended ends in a line feed. -/
theorem getLast?_ended (text : Text) : (text.ended true).getLast? = some '\n' := by
  unfold ended
  split_ifs with hmissing
  · exact List.getLast?_concat
  · simpa using hmissing

end Text

/-! ## Operations -/

/-- What a host does with a session. -/
inductive Operation
  | load (text : Text)
  | setText (text : Text)
  | input (input : Input)
  | jumpTo (target : Spot)
  /-- A link is followed elsewhere, and the request waits. -/
  | requestJump (target : Spot)
  | applyPendingJumps

/-- Whether an operation puts a text in place, given where the caret stands; at the beginning
there is nothing to delete. -/
def Operation.edits (caret : Nat) : Operation → Bool
  | .load _ => true
  | .setText _ => true
  | .input (.typeChar _) => true
  | .input (.insert _) => true
  | .input .deleteBackward => caret != 0
  | _ => false

namespace Session

/-- The session after an operation. -/
def operate (session : Session) : Operation → Except BufferError Session
  | .load text => .ok (session.load text).1
  | .setText text => .ok (session.setText text).1
  | .input input => (session.perform input).map (·.1)
  | .jumpTo target => .ok (session.jumpTo target).1
  | .requestJump target => .ok { session with jumps := (session.jumps.send target).2 }
  | .applyPendingJumps => .ok session.applyPendingJumps.1

/-- The session after some operations, unless one of them fails. -/
def operateAll (session : Session) : List Operation → Except BufferError Session
  | [] => .ok session
  | operation :: rest => do
    let next ← session.operate operation
    next.operateAll rest

/-- The text that an operation puts in place, before it is ended. -/
def edited? (session : Session) : Operation → Option Text
  | .load text => some text
  | .setText text => some text
  | .input input => (session.splice? input).map (·.apply session.text)
  | .jumpTo _ => none
  | .requestJump _ => none
  | .applyPendingJumps => none

/-- The session `next` may follow an operation that puts `edited` in place. -/
structure FollowedBy (session : Session) (edited : Option Text) (next : Session) : Prop where
  caret_le : next.caret ≤ next.text.length
  keeps : next.keepFinalNewline = session.keepFinalNewline
  text_eq : next.text = edited.elim session.text (Text.ended session.keepFinalNewline)

variable {session : Session}

/-! ## One operation -/

/-- An operation that does not edit leaves the text alone. -/
theorem isSome_edited? (session : Session) (operation : Operation) :
    (session.edited? operation).isSome = operation.edits session.caret := by
  cases operation with
  | input input =>
    cases input with
    | typeChar typed =>
      simp only [edited?, splice?, Operation.edits]
      cases session.indentUnit.onKey typed (session.text.take session.caret) <;> rfl
    | deleteBackward =>
      by_cases hzero : session.caret = 0
      · simp [edited?, splice?, Operation.edits, hzero]
      · simp [edited?, splice?, Operation.edits, hzero]
    | setCaret offset => rfl
    | insert text => rfl
  | load text => rfl
  | setText text => rfl
  | jumpTo target => rfl
  | requestJump target => rfl
  | applyPendingJumps => rfl

/-- What a session is once its text is ended. -/
theorem fst_endLine (session : Session) :
    session.endLine.1 =
      { session with buffer := ⟨session.text.ended session.keepFinalNewline⟩ } := by
  have hlast : session.buffer.last? = session.text.getLast? := rfl
  unfold endLine lacksFinalNewline Text.ended
  rw [hlast]
  split_ifs <;> rfl

/-- A text that was put in place is ended, and the caret stays where it is. -/
theorem followedBy_endLine (replaced : Session) (hcaret : replaced.caret ≤ replaced.text.length)
    (hkeeps : replaced.keepFinalNewline = session.keepFinalNewline) :
    session.FollowedBy (some replaced.text) replaced.endLine.1 := by
  rw [fst_endLine, hkeeps]
  exact ⟨Nat.le_trans hcaret (Text.length_le_ended _ _), rfl, rfl⟩

/-- After a stretch has been replaced the caret stands behind what was inserted. -/
theorem followedBy_splicedBy (splice : Splice) (h : splice.Fits session.text) :
    session.FollowedBy (some (splice.apply session.text)) (session.splicedBy splice).endLine.1 := by
  have hcaret : splice.start + splice.inserted.length ≤ (splice.apply session.text).length := by
    rw [length_apply splice h]
    exact Nat.le_add_right _ _
  exact followedBy_endLine (session.splicedBy splice) hcaret rfl

/-- An operation that only moves the caret inside the text. -/
theorem followedBy_none {next : Session} (hcaret : next.caret ≤ session.text.length)
    (hkeeps : next.keepFinalNewline = session.keepFinalNewline)
    (htext : next.text = session.text) : session.FollowedBy none next :=
  ⟨htext ▸ hcaret, hkeeps, htext⟩

/-- Every input of a host succeeds while the caret is inside the text. -/
theorem exists_perform (h : session.caret ≤ session.text.length) (input : Input) :
    ∃ next spans, session.perform input = .ok (next, spans) ∧
      session.FollowedBy ((session.splice? input).map (·.apply session.text)) next := by
  cases hsplice : session.splice? input with
  | none =>
    obtain ⟨caret, hcaret, hperform⟩ := perform_of_splice?_none h hsplice
    exact ⟨_, _, hperform, followedBy_none hcaret rfl rfl⟩
  | some splice =>
    obtain ⟨hfits, hperform⟩ := perform_eq h hsplice
    exact ⟨_, _, hperform, followedBy_splicedBy splice hfits⟩

/-- Every operation succeeds while the caret is inside the text, and leaves it there. -/
theorem exists_operate (h : session.caret ≤ session.text.length) (operation : Operation) :
    ∃ next, session.operate operation = .ok next ∧
      session.FollowedBy (session.edited? operation) next := by
  cases operation with
  | load text =>
    let opened : Session :=
      { session with buffer := ⟨text⟩, caret := 0, indentUnit := session.unitFor text }
    exact ⟨opened.endLine.1, rfl, followedBy_endLine opened (Nat.zero_le _) rfl⟩
  | setText text =>
    let replaced : Session :=
      { session with buffer := ⟨text⟩, caret := min session.caret text.length }
    exact ⟨replaced.endLine.1, rfl, followedBy_endLine replaced (Nat.min_le_right _ _) rfl⟩
  | input input =>
    obtain ⟨next, spans, hperform, hnext⟩ := exists_perform h input
    refine ⟨next, ?_, hnext⟩
    rw [operate, hperform]
    rfl
  | jumpTo target =>
    exact ⟨_, rfl, followedBy_none (Text.offsetOf_le _ _) rfl rfl⟩
  | requestJump target =>
    exact ⟨_, rfl, followedBy_none h rfl rfl⟩
  | applyPendingJumps =>
    refine ⟨_, rfl, ?_⟩
    unfold applyPendingJumps
    cases hwaiting : session.jumps.latest with
    | mk target jumps =>
      cases target with
      | none => exact followedBy_none h rfl rfl
      | some target => exact followedBy_none (Text.offsetOf_le _ _) rfl rfl

/-- The unit after an operation: a text that is opened may bring its own. -/
def unitAfter (session : Session) : Operation → IndentUnit
  | .load text => session.unitFor text
  | _ => session.indentUnit

/-- An operation changes the text, the caret, the unit and the requests that wait, nothing else. -/
theorem operate_eq (h : session.caret ≤ session.text.length) {operation : Operation}
    {next : Session} (hnext : session.operate operation = .ok next) :
    ∃ buffer caret jumps, next =
      { session with
        buffer := buffer
        caret := caret
        indentUnit := session.unitAfter operation
        jumps := jumps } := by
  cases operation with
  | load text =>
    obtain rfl := Except.ok.inj hnext
    exact ⟨_, _, _, fst_endLine _⟩
  | setText text =>
    obtain rfl := Except.ok.inj hnext
    exact ⟨_, _, _, fst_endLine _⟩
  | input input =>
    have hmap : (session.perform input).map (·.1) = .ok next := hnext
    cases hsplice : session.splice? input with
    | none =>
      obtain ⟨caret, -, hperform⟩ := perform_of_splice?_none h hsplice
      rw [hperform] at hmap
      obtain rfl := Except.ok.inj hmap
      exact ⟨_, _, _, rfl⟩
    | some splice =>
      rw [(perform_eq h hsplice).2] at hmap
      obtain rfl := Except.ok.inj hmap
      exact ⟨_, _, _, fst_endLine _⟩
  | jumpTo target =>
    obtain rfl := Except.ok.inj hnext
    exact ⟨_, _, _, rfl⟩
  | requestJump target =>
    obtain rfl := Except.ok.inj hnext
    exact ⟨_, _, _, rfl⟩
  | applyPendingJumps =>
    obtain rfl := Except.ok.inj hnext
    unfold applyPendingJumps
    cases session.jumps.latest with
    | mk target jumps => cases target <;> exact ⟨_, _, _, rfl⟩

/-! ## Runs -/

theorem operateAll_append (session : Session) (earlier later : List Operation) :
    session.operateAll (earlier ++ later) =
      session.operateAll earlier >>= fun next => next.operateAll later := by
  induction earlier generalizing session with
  | nil => rfl
  | cons operation earlier ih =>
    rw [List.cons_append, operateAll, operateAll]
    cases session.operate operation with
    | error error => rfl
    | ok next => exact ih next

/-- A run succeeds if it begins with the caret inside the text, and leaves it there. -/
theorem exists_operateAll (h : session.caret ≤ session.text.length)
    (operations : List Operation) :
    ∃ final, session.operateAll operations = .ok final ∧ final.caret ≤ final.text.length ∧
      final.keepFinalNewline = session.keepFinalNewline := by
  induction operations generalizing session with
  | nil => exact ⟨session, rfl, h, rfl⟩
  | cons operation operations ih =>
    obtain ⟨next, hnext, hfollows⟩ := exists_operate h operation
    obtain ⟨final, hfinal, hcaret, hkeeps⟩ := ih hfollows.caret_le
    refine ⟨final, ?_, hcaret, hkeeps.trans hfollows.keeps⟩
    rw [operateAll, hnext]
    exact hfinal

/-- A session that keeps a line feed at the end has one after a text was put in place. -/
theorem FollowedBy.getLast? {edited : Option Text} {next : Session}
    (h : session.FollowedBy edited next) (hkeeps : session.keepFinalNewline = true)
    (hends : edited.isSome = true ∨ session.text.getLast? = some '\n') :
    next.text.getLast? = some '\n' := by
  rw [h.text_eq, hkeeps]
  cases edited with
  | none => exact hends.resolve_left Bool.false_ne_true
  | some text => exact Text.getLast?_ended text

/-- A line feed at the end is kept through a run. -/
theorem getLast?_operateAll {final : Session} {operations : List Operation}
    (h : session.caret ≤ session.text.length) (hkeeps : session.keepFinalNewline = true)
    (hends : session.text.getLast? = some '\n') (hrun : session.operateAll operations = .ok final) :
    final.text.getLast? = some '\n' := by
  induction operations generalizing session with
  | nil =>
    obtain rfl := Except.ok.inj hrun
    exact hends
  | cons operation operations ih =>
    obtain ⟨next, hnext, hfollows⟩ := exists_operate h operation
    rw [operateAll, hnext] at hrun
    exact ih hfollows.caret_le (hfollows.keeps.trans hkeeps)
      (hfollows.getLast? hkeeps (Or.inr hends)) hrun

/--
Every run of a new session succeeds and leaves the caret inside the text.  Every operation that
may come next succeeds too, and either leaves the text alone or puts a text in place and ends it.
If line feeds are kept at the end there is one after every operation that puts a text in place,
and from then on.
-/
theorem operateAll_ofSettings (settings : Settings) (operations : List Operation) :
    ∃ session, (ofSettings settings).operateAll operations = .ok session ∧
      session.caret ≤ session.buffer.size ∧
      (∀ operation, ∃ next, session.operate operation = .ok next ∧
        next.text = (session.edited? operation).elim session.text
          (Text.ended settings.editor.keepFinalNewline)) ∧
      (settings.editor.keepFinalNewline = true →
        ∀ earlier operation later before, operations = earlier ++ operation :: later →
          (ofSettings settings).operateAll earlier = .ok before →
            operation.edits before.caret = true → session.text.getLast? = some '\n') := by
  have hstart : (ofSettings settings).caret ≤ (ofSettings settings).text.length := Nat.le_refl 0
  obtain ⟨session, hrun, hcaret, hkept⟩ := exists_operateAll hstart operations
  refine ⟨session, hrun, hcaret, ?_, ?_⟩
  · intro operation
    obtain ⟨next, hnext, hfollows⟩ := exists_operate hcaret operation
    refine ⟨next, hnext, ?_⟩
    rw [hfollows.text_eq, hkept]
    rfl
  · rintro hkeeps earlier operation later before rfl hearlier hedits
    obtain ⟨reached, hreached, hinside, hsame⟩ := exists_operateAll hstart earlier
    obtain rfl := Except.ok.inj (hearlier.symm.trans hreached)
    obtain ⟨next, hnext, hfollows⟩ := exists_operate hinside operation
    -- the text is ended by the operation that puts it in place, and kept so by those that follow
    have hlater : next.operateAll later = .ok session := by
      rw [operateAll_append, hearlier] at hrun
      have hstep : before.operateAll (operation :: later) = .ok session := hrun
      rw [operateAll, hnext] at hstep
      exact hstep
    have hbefore : before.keepFinalNewline = true := hsame.trans hkeeps
    have hedited : (before.edited? operation).isSome = true := by
      rw [isSome_edited?, hedits]
    exact getLast?_operateAll hfollows.caret_le (hfollows.keeps.trans hbefore)
      (hfollows.getLast? hbefore (Or.inl hedited)) hlater

/-- A unit without blanks, an empty text and a spot behind the end of the text. -/
theorem operateAll_ofSettings_zero_width :
    let settings : Settings :=
      { Settings.standard with
        editor := { EditorSettings.standard with indentUnit := .spaces 0 } }
    ∃ session, (ofSettings settings).operateAll
        [.setText [], .input (.typeChar '{'), .input (.typeChar '\n'), .input (.typeChar '}'),
          .requestJump ⟨9, 9⟩, .applyPendingJumps, .input .deleteBackward] = .ok session ∧
      session.caret ≤ session.buffer.size ∧ session.text.getLast? = some '\n' := by
  intro settings
  obtain ⟨session, hrun, hcaret, -, hends⟩ := operateAll_ofSettings settings
    [.setText [], .input (.typeChar '{'), .input (.typeChar '\n'), .input (.typeChar '}'),
      .requestJump ⟨9, 9⟩, .applyPendingJumps, .input .deleteBackward]
  exact ⟨session, hrun, hcaret, hends rfl [] _ _ (ofSettings settings) rfl rfl rfl⟩

end Session

end ScratchEditor

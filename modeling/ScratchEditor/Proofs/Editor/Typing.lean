import ScratchEditor.Proofs.Editor.Edits

/-!
# Typing a text

A text that is typed character by character leaves the session that one insertion of the whole
text leaves, as long as none of its characters indents.  The two runs pass through different
texts: typing adds the line feed that is missing behind the caret with the first character, the
insertion with the last one.  Neither adds a second one, and whether one is missing is seen behind
the caret, as no character that was typed before it is a line feed.

Main definitions:

- `Operation.typing`: the keys that type a text.

Main results:

- `Session.operate_plainKey`: what one key makes of the text before and behind the caret.
- `Session.operateAll_typing`: what the keys of a text make of them.
- `Session.typing_agrees_insert`: typing and inserting after every run of a new session.
-/

namespace ScratchEditor

/-- The keys that type a text, one for each character. -/
def Operation.typing (text : Text) : List Operation :=
  text.map fun c => .input (.typeChar c)

namespace IndentUnit

variable {unit : IndentUnit} {typed : Char} {before : Text}

theorem kept_plain (hbrace : typed ≠ '}') : unit.kept typed before = before :=
  if_neg fun h => hbrace h.1

theorem entered_plain (hfeed : typed ≠ '\n') : unit.entered typed before = [typed] :=
  if_neg fun h => hfeed h.1

end IndentUnit

namespace Session

variable {session : Session}

/-- A key that does not indent stands before the caret, and a line feed behind it if one was
missing there. -/
theorem operate_plainKey (session : Session) (before after : Text) {typed : Char}
    (hfeed : typed ≠ '\n') (hbrace : typed ≠ '}') :
    (session.caretBetween before after).operate (.input (.typeChar typed)) =
      .ok (session.caretBetween (before ++ [typed])
        (after ++ Text.missingFeed session.keepFinalNewline after)) := by
  obtain ⟨spans, htype⟩ := session.typeChar_caretBetween before after typed
  have hlast : (before ++ [typed]).getLast? ≠ some '\n' := by
    rw [List.getLast?_concat]
    exact fun h => hfeed (Option.some.inj h)
  rw [IndentUnit.kept_plain hbrace, IndentUnit.entered_plain hfeed,
    Text.missingFeed_behind _ hlast] at htype
  have hperform : (session.caretBetween before after).operate (.input (.typeChar typed)) =
      ((session.caretBetween before after).typeChar typed).map (·.1) := rfl
  rw [hperform, htype]
  rfl

/-- The keys of a text stand before the caret in order.  The line feed that was missing behind it
is added with the first of them, and found there by the others. -/
theorem operateAll_typing (session : Session) (before after : Text) {text : Text}
    (hne : text ≠ []) (hfeed : '\n' ∉ text) (hbrace : '}' ∉ text) :
    (session.caretBetween before after).operateAll (Operation.typing text) =
      .ok (session.caretBetween (before ++ text)
        (after ++ Text.missingFeed session.keepFinalNewline after)) := by
  induction text generalizing before after with
  | nil => exact absurd rfl hne
  | cons typed rest ih =>
    have hkey := session.operate_plainKey before after (List.ne_of_not_mem_cons hfeed).symm
      (List.ne_of_not_mem_cons hbrace).symm
    have hstep : (session.caretBetween before after).operateAll (Operation.typing (typed :: rest)) =
        (session.caretBetween (before ++ [typed])
          (after ++ Text.missingFeed session.keepFinalNewline after)).operateAll
            (Operation.typing rest) := by
      rw [Operation.typing, List.map_cons, operateAll, hkey]
      rfl
    rw [hstep]
    by_cases hrest : rest = []
    · subst hrest
      rfl
    · rw [ih _ _ hrest (List.not_mem_of_not_mem_cons hfeed) (List.not_mem_of_not_mem_cons hbrace),
        Text.missingFeed_ended, List.append_nil, List.append_assoc]
      rfl

/--
After every run of a new session the caret cuts the text in two.  A text that is not empty and has
neither line feeds nor closing braces may then be typed character by character or inserted at
once, and both lead to the same session.  The caret stands behind the text, and behind the caret
at most the line feed is added that is missing at the end.
-/
theorem typing_agrees_insert (settings : Settings) (operations : List Operation) :
    ∃ session before after, (ofSettings settings).operateAll operations = .ok session ∧
      session = session.caretBetween before after ∧
      ∀ text, text ≠ [] → '\n' ∉ text → '}' ∉ text →
        let next := session.caretBetween (before ++ text)
          (after ++ Text.missingFeed settings.editor.keepFinalNewline after)
        session.operateAll (Operation.typing text) = .ok next ∧
          ∃ spans, session.insert text = .ok (next, spans) := by
  obtain ⟨session, hrun, hreached⟩ := reached_operateAll (reached_ofSettings settings) operations
  obtain ⟨before, after, hcut⟩ := exists_caretBetween hreached.caret_le
  refine ⟨session, before, after, hrun, hcut, ?_⟩
  intro text hne hfeed hbrace next
  constructor
  · have htyping := session.operateAll_typing before after hne hfeed hbrace
    rwa [← hcut, hreached.keeps] at htyping
  · obtain ⟨spans, hinsert⟩ := session.insert_caretBetween before after text
    have hlast : (before ++ text).getLast? ≠ some '\n' := by
      rw [List.getLast?_append_of_ne_nil _ hne]
      exact fun h => hfeed (List.mem_of_getLast? h)
    rw [← hcut, Text.missingFeed_behind _ hlast, hreached.keeps] at hinsert
    exact ⟨spans, hinsert⟩

/-- Typed into an empty session a comment with an open brace gets its line feed with the first
character, as it does when it is inserted. -/
theorem typing_agrees_insert_comment :
    let text : Text := ['/', '/', '{', '\t']
    ∃ session spans, (ofSettings .standard).operateAll [] = .ok session ∧
      text ≠ [] ∧ '\n' ∉ text ∧ '}' ∉ text ∧
      session.operateAll (Operation.typing text) = .ok (session.caretBetween text ['\n']) ∧
      session.insert text = .ok (session.caretBetween text ['\n'], spans) := by
  intro text
  obtain ⟨session, before, after, hrun, hcut, hagrees⟩ := typing_agrees_insert .standard []
  obtain rfl := Except.ok.inj hrun
  obtain rfl : [] = before := take_caret_of_eq hcut
  obtain rfl : [] = after := congrArg Session.text hcut
  obtain ⟨htyping, spans, hinsert⟩ := hagrees text (by decide) (by decide) (by decide)
  exact ⟨_, spans, hrun, by decide, by decide, by decide, htyping, hinsert⟩

end Session

end ScratchEditor

import ScratchEditor.Text.Buffer

/-!
# Buffers as lists of characters

A buffer that is changed in place keeps what a request did to it before the request failed.  A
replacement is made in two steps, and the second is checked against the text that the first one
left.  All the same a buffer behaves as a list of characters in which stretches are replaced: a
request is answered if its stretch lies in the list, and leaves the list alone if it does not.

Main definitions:

- `Buffer.Request`: what is asked of a buffer.
- `Buffer.serve` and `Buffer.serveAll`: requests made of a buffer in place.
- `Buffer.Request.onText` and `Buffer.Request.onTexts`: the same requests made of a list.

Main results:

- `Buffer.seen_serve`: what one request makes of a buffer.
- `Buffer.map_seen_serveAll`: what a run of requests makes of it.
- `Buffer.serveAll_splices`: every run of requests, and replacements made in place.
-/

namespace ScratchEditor

namespace Buffer

/-- What is asked of a buffer. -/
inductive Request
  | charAt (offset : Nat)
  | slice (start stop : Nat)
  | before (offset : Nat)
  | insert (offset : Nat) (entered : Text)
  | remove (start stop : Nat)
  | replace (start stop : Nat) (entered : Text)
  | setText (entered : Text)

/-! ## Requests made of a buffer -/

/-- The answer to a change made in place, and the buffer after it. -/
def changeTo (buffer : Buffer) : Except BufferError Buffer → Except BufferError Text × Buffer
  | .ok next => (.ok [], next)
  | .error error => (.error error, buffer)

/-- The answer to a request, and the buffer after it. -/
def serve (buffer : Buffer) : Request → Except BufferError Text × Buffer
  | .charAt offset => ((buffer.charAt offset).map ([·]), buffer)
  | .slice start stop => (buffer.slice start stop, buffer)
  | .before offset => (buffer.before offset, buffer)
  | .insert offset entered => buffer.changeTo (buffer.insert offset entered)
  | .remove start stop => buffer.changeTo (buffer.remove start stop)
  | .replace start stop entered =>
    -- if the second step failed, the buffer would stay without what the first one removed
    match buffer.remove start stop with
    | .ok removed => removed.changeTo (removed.insert start entered)
    | .error error => (.error error, buffer)
  | .setText entered => (.ok [], ⟨entered⟩)

/-- The answers to requests made one after the other, each with the buffer after it. -/
def serveAll (buffer : Buffer) : List Request → List (Except BufferError Text × Buffer)
  | [] => []
  | request :: rest =>
    let served := buffer.serve request
    served :: served.2.serveAll rest

/-! ## Requests made of a list -/

namespace Request

/-- Where the stretch that a request is about begins and ends, in a text of so many characters. -/
def bounds (size : Nat) : Request → Nat × Nat
  | .charAt offset => (offset, offset + 1)
  | .slice start stop => (start, stop)
  | .before offset => (0, offset)
  | .insert offset _ => (offset, offset)
  | .remove start stop => (start, stop)
  | .replace start stop _ => (start, stop)
  | .setText _ => (0, size)

/-- What is put in place of the stretch, unless the stretch is what the request asks for. -/
def entered? : Request → Option Text
  | .charAt _ => none
  | .slice _ _ => none
  | .before _ => none
  | .insert _ entered => some entered
  | .remove _ _ => some []
  | .replace _ _ entered => some entered
  | .setText entered => some entered

/-- The answer to a request made of a list of characters, if its stretch lies in the list, and the
list after it. -/
def onText (request : Request) (text : Text) : Option Text × Text :=
  let (start, stop) := request.bounds text.length
  if start ≤ stop ∧ stop ≤ text.length then
    match request.entered? with
    | some entered => (some [], text.take start ++ (entered ++ text.drop stop))
    | none => (some ((text.take stop).drop start), text)
  else (none, text)

/-- The answers to requests made of a list one after the other, each with the list after it. -/
def onTexts (text : Text) : List Request → List (Option Text × Text)
  | [] => []
  | request :: rest =>
    let served := request.onText text
    served :: onTexts served.2 rest

end Request

/-! ## Ranges that do not fit -/

variable {buffer : Buffer} {start stop : Nat}

/-- A range that is out of order or reaches past the text is refused. -/
theorem exists_checkRange_error (h : ¬ (start ≤ stop ∧ stop ≤ buffer.size)) :
    ∃ error, buffer.checkRange start stop = .error error := by
  cases hcheck : buffer.checkRange start stop with
  | ok accepted => exact absurd (checkRange_eq_ok_iff.mp hcheck) h
  | error error => exact ⟨error, rfl⟩

theorem exists_remove_error (h : ¬ (start ≤ stop ∧ stop ≤ buffer.size)) :
    ∃ error, buffer.remove start stop = .error error := by
  obtain ⟨error, hcheck⟩ := exists_checkRange_error h
  refine ⟨error, ?_⟩
  rw [remove, hcheck]
  rfl

/-- Once a range has been removed a text can be put in where it began. -/
theorem exists_insert_of_remove {removed : Buffer} (entered : Text)
    (h : buffer.remove start stop = .ok removed) :
    ∃ next, removed.insert start entered = .ok next := by
  by_cases hrange : start ≤ stop ∧ stop ≤ buffer.size
  · rw [remove_of_le hrange.1 hrange.2] at h
    obtain rfl := Except.ok.inj h
    exact ⟨_, insert_removed entered hrange.1 hrange.2⟩
  · obtain ⟨error, hremove⟩ := exists_remove_error hrange
    cases hremove.symm.trans h

/-- A replacement made in place leaves what a replacement made at once does. -/
theorem serve_replace (buffer : Buffer) (start stop : Nat) (entered : Text) :
    buffer.serve (.replace start stop entered) =
      buffer.changeTo (buffer.replace start stop entered) := by
  rw [serve, replace]
  cases hremove : buffer.remove start stop with
  | error error => rfl
  | ok removed =>
    obtain ⟨next, hinsert⟩ := exists_insert_of_remove entered hremove
    have hserve : removed.changeTo (removed.insert start entered) =
        buffer.changeTo (removed.insert start entered) := by
      rw [hinsert]
      rfl
    exact hserve

/-! ## What the operations give -/

/-- What is computed once a range is accepted. -/
theorem toOption_checked {α : Type} (buffer : Buffer) (start stop : Nat) (value : α) :
    (buffer.checkRange start stop >>= fun _ => .ok value).toOption =
      if start ≤ stop ∧ stop ≤ buffer.text.length then some value else none := by
  by_cases hrange : start ≤ stop ∧ stop ≤ buffer.text.length
  · rw [if_pos hrange, checkRange_eq_ok_iff.mpr hrange]
    rfl
  · obtain ⟨error, hcheck⟩ := exists_checkRange_error hrange
    rw [if_neg hrange, hcheck]
    rfl

/-- The character at an offset is the stretch of one character that begins there. -/
theorem toOption_charAt (buffer : Buffer) (offset : Nat) :
    ((buffer.charAt offset).map ([·])).toOption =
      if offset ≤ offset + 1 ∧ offset + 1 ≤ buffer.text.length then
        some ((buffer.text.take (offset + 1)).drop offset)
      else none := by
  unfold charAt
  by_cases hrange : offset ≤ offset + 1 ∧ offset + 1 ≤ buffer.text.length
  · rw [if_pos hrange, List.getElem?_eq_getElem hrange.2, List.drop_take,
      Nat.add_sub_cancel_left, List.drop_eq_getElem_cons hrange.2]
    rfl
  · have hpast : buffer.text.length ≤ offset :=
      Nat.le_of_not_lt fun hinside => hrange ⟨Nat.le_succ offset, hinside⟩
    rw [if_neg hrange, List.getElem?_eq_none hpast]
    rfl

theorem toOption_slice (buffer : Buffer) (start stop : Nat) :
    (buffer.slice start stop).toOption =
      if start ≤ stop ∧ stop ≤ buffer.text.length then
        some ((buffer.text.take stop).drop start)
      else none := by
  have hslice : buffer.slice start stop =
      (buffer.checkRange start stop >>= fun _ =>
        .ok (buffer.text.slice (Extent.between start stop))) := rfl
  rw [hslice, toOption_checked, List.drop_take]
  rfl

theorem toOption_insert (buffer : Buffer) (offset : Nat) (entered : Text) :
    (buffer.insert offset entered).toOption =
      if offset ≤ offset ∧ offset ≤ buffer.text.length then
        some ⟨buffer.text.take offset ++ (entered ++ buffer.text.drop offset)⟩
      else none := by
  by_cases hrange : offset ≤ offset ∧ offset ≤ buffer.text.length
  · rw [if_pos hrange, insert_of_le entered hrange.2]
    rfl
  · have hpast : buffer.size < offset :=
      Nat.lt_of_not_le fun hinside => hrange ⟨Nat.le_refl offset, hinside⟩
    rw [if_neg hrange, insert, if_pos hpast]
    rfl

theorem toOption_remove (buffer : Buffer) (start stop : Nat) :
    (buffer.remove start stop).toOption =
      if start ≤ stop ∧ stop ≤ buffer.text.length then
        some ⟨buffer.text.take start ++ buffer.text.drop stop⟩
      else none :=
  toOption_checked buffer start stop _

theorem toOption_replace (buffer : Buffer) (start stop : Nat) (entered : Text) :
    (buffer.replace start stop entered).toOption =
      if start ≤ stop ∧ stop ≤ buffer.text.length then
        some ⟨buffer.text.take start ++ (entered ++ buffer.text.drop stop)⟩
      else none := by
  by_cases hrange : start ≤ stop ∧ stop ≤ buffer.text.length
  · rw [if_pos hrange, replace_of_le entered hrange.1 hrange.2]
    rfl
  · obtain ⟨error, hremove⟩ := exists_remove_error hrange
    rw [if_neg hrange, replace, hremove]
    rfl

/-! ## One request -/

/-- What is seen of a request that was made of a buffer: the answer, if there is one, and the
characters after it. -/
def seen (served : Except BufferError Text × Buffer) : Option Text × Text :=
  (served.1.toOption, served.2.text)

/-- A change that is possible is seen in the buffer, and one that is not leaves it alone. -/
theorem seen_changeTo (buffer : Buffer) {result : Except BufferError Buffer} {fits : Prop}
    [Decidable fits] {edited : Text}
    (h : result.toOption = if fits then some ⟨edited⟩ else none) :
    seen (buffer.changeTo result) = if fits then (some [], edited) else (none, buffer.text) := by
  by_cases hfits : fits
  · rw [if_pos hfits] at h ⊢
    cases result with
    | error error => cases h
    | ok next =>
      obtain rfl := Option.some.inj h
      rfl
  · rw [if_neg hfits] at h ⊢
    cases result with
    | error error => rfl
    | ok next => cases h

/-- What is asked for is answered if it is there, and the buffer is left alone. -/
theorem seen_look (buffer : Buffer) {result : Except BufferError Text} {fits : Prop}
    [Decidable fits] {asked : Text} (h : result.toOption = if fits then some asked else none) :
    seen (result, buffer) = if fits then (some asked, buffer.text) else (none, buffer.text) := by
  rw [seen, h]
  split <;> rfl

/-- A request made of a buffer is answered as one made of the list of its characters. -/
theorem seen_serve (buffer : Buffer) (request : Request) :
    seen (buffer.serve request) = request.onText buffer.text := by
  cases request with
  | charAt offset => exact buffer.seen_look (toOption_charAt buffer offset)
  | slice start stop => exact buffer.seen_look (toOption_slice buffer start stop)
  | before offset => exact buffer.seen_look (toOption_slice buffer 0 offset)
  | insert offset entered => exact buffer.seen_changeTo (toOption_insert buffer offset entered)
  | remove start stop => exact buffer.seen_changeTo (toOption_remove buffer start stop)
  | replace start stop entered =>
    rw [serve_replace]
    exact buffer.seen_changeTo (toOption_replace buffer start stop entered)
  | setText entered =>
    have hwhole : 0 ≤ buffer.text.length ∧ buffer.text.length ≤ buffer.text.length :=
      ⟨Nat.zero_le _, Nat.le_refl _⟩
    have hlist : Request.onText (.setText entered) buffer.text =
        if 0 ≤ buffer.text.length ∧ buffer.text.length ≤ buffer.text.length then
          (some [], buffer.text.take 0 ++ (entered ++ buffer.text.drop buffer.text.length))
        else (none, buffer.text) := rfl
    rw [hlist, if_pos hwhole, List.drop_length, List.append_nil]
    rfl

/-! ## Runs -/

/-- A run of requests is answered as one made of a list. -/
theorem map_seen_serveAll (buffer : Buffer) (requests : List Request) :
    (buffer.serveAll requests).map seen = Request.onTexts buffer.text requests := by
  induction requests generalizing buffer with
  | nil => rfl
  | cons request rest ih =>
    have hserved := buffer.seen_serve request
    have htext : (buffer.serve request).2.text = (request.onText buffer.text).2 :=
      congrArg Prod.snd hserved
    rw [serveAll, List.map_cons, hserved, ih, htext]
    rfl

/--
Whatever is asked of a buffer, in any order, it answers as the list of its characters would, and
holds that list.  A request fails if its stretch is out of order or reaches past the end, and the
list then stays as it is.  In a replacement the insertion never fails once the range is removed, so
a replacement made in place leaves what one made at once does.
-/
theorem serveAll_splices (text : Text) (requests : List Request) :
    (serveAll ⟨text⟩ requests).map (fun served => (served.1.toOption, served.2.text)) =
      Request.onTexts text requests ∧
    ∀ (buffer : Buffer) (start stop : Nat) (entered : Text),
      (∀ removed, buffer.remove start stop = .ok removed →
        ∃ next, removed.insert start entered = .ok next) ∧
      buffer.serve (.replace start stop entered) =
        buffer.changeTo (buffer.replace start stop entered) := by
  refine ⟨map_seen_serveAll ⟨text⟩ requests, fun buffer start stop entered => ⟨?_, ?_⟩⟩
  · exact fun removed hremove => exists_insert_of_remove entered hremove
  · exact serve_replace buffer start stop entered

/-- A letter of two bytes is replaced by two characters.  A range that is out of order, an offset at
the end and a range that reaches past it are refused. -/
theorem serveAll_splices_letter :
    let text : Text := ['a', 'é', 'b']
    let edited : Text := ['a', 'x', '\n', 'b']
    (serveAll ⟨text⟩ [.replace 1 2 ['x', '\n'], .replace 3 2 [], .charAt 4, .slice 1 3,
        .remove 2 5]).map (fun served => (served.1.toOption, served.2.text)) =
      [(some [], edited), (none, edited), (none, edited), (some ['x', '\n'], edited),
        (none, edited)] ∧
      remove ⟨text⟩ 1 2 = .ok ⟨['a', 'b']⟩ ∧
      ∃ next, insert ⟨['a', 'b']⟩ 1 ['x', '\n'] = .ok next := by
  intro text edited
  obtain ⟨hlist, hreplace⟩ := serveAll_splices text
    [.replace 1 2 ['x', '\n'], .replace 3 2 [], .charAt 4, .slice 1 3, .remove 2 5]
  have hremove : remove ⟨text⟩ 1 2 = .ok ⟨['a', 'b']⟩ := rfl
  exact ⟨hlist.trans rfl, hremove, (hreplace ⟨text⟩ 1 2 ['x', '\n']).1 _ hremove⟩

end Buffer

end ScratchEditor

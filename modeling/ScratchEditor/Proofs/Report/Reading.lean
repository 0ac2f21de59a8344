import ScratchEditor.Proofs.Report.Entry
import ScratchEditor.Proofs.Token.Lexemes

/-!
# Matching the pattern of diagnostics

The pattern of diagnostics matches at a place if an entry begins there, and its groups
capture the parts of this entry.

Main definitions:

- `Place.reach`: a place further on, with other groups.
- `Diagnostic.tree`: the tree of the pattern.
- `Diagnostic.Entry.groups` and `Diagnostic.Entry.found`: the match that takes an entry.

Main results:

- `Diagnostic.matchAt?_patternNode`: the match at an offset takes the entry there.
-/

namespace ScratchEditor

namespace Place

/-- The place so many characters further on, with other groups. -/
def reach (place : Place) (n : Nat) (groups : List (Nat × Extent)) : Place :=
  { place.skip n with groups := groups }

@[simp]
theorem rest_reach (place : Place) (n : Nat) (groups : List (Nat × Extent)) :
    (place.reach n groups).rest = place.rest.drop n :=
  rfl

@[simp]
theorem offset_reach (place : Place) (n : Nat) (groups : List (Nat × Extent)) :
    (place.reach n groups).offset = place.offset + n :=
  rfl

@[simp]
theorem groups_reach (place : Place) (n : Nat) (groups : List (Nat × Extent)) :
    (place.reach n groups).groups = groups :=
  rfl

@[simp]
theorem skip_reach (place : Place) (m n : Nat) (groups : List (Nat × Extent)) :
    (place.reach m groups).skip n = place.reach (m + n) groups := by
  rw [reach, reach, ← skip_skip]
  rfl

@[simp]
theorem reach_reach (place : Place) (m n : Nat) (groups groups' : List (Nat × Extent)) :
    (place.reach m groups).reach n groups' = place.reach (m + n) groups' := by
  rw [reach, skip_reach]
  rfl

@[simp]
theorem reach_skip (place : Place) (m n : Nat) (groups : List (Nat × Extent)) :
    (place.skip m).reach n groups = place.reach (m + n) groups := by
  rw [reach, skip_skip]
  rfl

/-- What is captured behind some characters that are skipped. -/
theorem skip_capture (place : Place) (m n index : Nat) :
    (place.skip (m + n)).capture index (place.offset + m) =
      place.reach (m + n) ((index, ⟨place.offset + m, n⟩) :: place.groups) := by
  rw [← Extent.between_add, Nat.add_assoc]
  rfl

theorem reach_capture (place : Place) (n index start : Nat) (groups : List (Nat × Extent)) :
    (place.capture index start).reach n groups = place.reach n groups :=
  rfl

theorem capture_skip (place : Place) (n index start : Nat) :
    (place.capture index start).skip n =
      place.reach n ((index, Extent.between start place.offset) :: place.groups) :=
  rfl

end Place

namespace Diagnostic

open Node

variable {α : Type}

/-! ## The tree of the pattern -/

/-- The name of a file, as much of the line as there is. -/
def fileNode : Node :=
  choice [sequence [many (.complement (.only '\n'))]]

/-- Digits of ASCII. -/
def countNode : Node :=
  choice [sequence [.times (.char (.union .nothing (.span '0' '9'))) 1 none true]]

/-- The word of a severity. -/
def severityNode : Node :=
  choice [literal "warning".toList, literal "error".toList]

/-- A character of any kind. -/
def anyNode : Node :=
  choice [sequence [.char (.complement (.only '\n'))], sequence [.char (.only '\n')]]

/-- At most one character of a kind. -/
def optional (c : Char) : Node :=
  .times (.char (.only c)) 0 (some 1) true

/-- What a message ends before. -/
def endingNode : Node :=
  choice [sequence [optional '\r', .char (.only '\n'), optional '\r', .char (.only '\n')],
    sequence [optional '\r', optional '\n', .anchor .textStop]]

/-- A heading, with groups for its parts. -/
def headingNodes : List Node :=
  [.char (.only ':'), .group 2 countNode, .char (.only ':'), .group 3 countNode,
    .char (.only ':'), .char (.only ' '), .group 4 severityNode, .char (.only ':'),
    .char (.only ' ')]

/-- A message and its ending. -/
def messageNodes : List Node :=
  [.group 5 (choice [sequence [.times anyNode 0 none false]]), endingNode]

/-- The tree of the pattern. -/
def tree : Node :=
  choice [sequence (.group 1 fileNode :: headingNodes ++ messageNodes)]

theorem patternNode_eq : patternNode = tree := by
  decide +kernel

/-! ## Endings -/

theorem run_optional_only (c : Char) (place : Place) (accept : Place → Option α) :
    (optional c).run place accept =
      (if place.rest.head? = some c then accept (place.skip 1) else none).or (accept place) := by
  rw [optional, run_optional, Option.orElse_eq_or, run_only]

/-- A carriage return that may be missing and a line feed are a line break. -/
theorem run_lineBreak (place : Place) (accept : Place → Option α) :
    ((optional '\r').run place fun next => (char (.only '\n')).run next accept) =
      (lineBreak? place.rest).bind fun lineBreak => accept (place.skip lineBreak.length) := by
  rw [run_optional_only]
  simp only [run_only, Place.rest_skip, Place.skip_skip]
  rcases hrest : place.rest with _ | ⟨c, rest⟩
  · rfl
  · by_cases hc : c = '\r'
    · subst hc
      rcases rest with _ | ⟨d, rest⟩
      · rfl
      · by_cases hd : d = '\n'
        · subst hd
          simp [lineBreak?]
        · simp [lineBreak?, hd, Ne.symm hd]
    · by_cases hfeed : c = '\n'
      · subst hfeed
        simp [lineBreak?]
      · simp [lineBreak?, hc, Ne.symm hc, hfeed, Ne.symm hfeed]

/-- At most a carriage return and a line feed are taken before the end of the text. -/
theorem run_lastBreak (place : Place) :
    ((optional '\r').run place fun next => (optional '\n').run next fun last =>
      if last.satisfies .textStop then some last else none) =
      if place.rest ∈ lastBreaks then some (place.skip place.rest.length) else none := by
  have hstop (place : Place) : place.satisfies .textStop = place.rest.isEmpty := by
    cases hrest : place.rest <;> simp [Place.satisfies, Anchor.holds, hrest]
  simp only [run_optional_only, hstop, Place.rest_skip, Place.skip_skip]
  obtain ⟨before, rest, offset, groups⟩ := place
  rcases rest with _ | ⟨c, _ | ⟨d, rest⟩⟩
  · simp [lastBreaks]
  · by_cases hc : c = '\r'
    · subst hc
      simp [lastBreaks]
    · by_cases hfeed : c = '\n' <;> simp [lastBreaks, hc, hfeed]
  · by_cases hc : c = '\r'
    · subst hc
      by_cases hd : d = '\n'
      · subst hd
        cases rest <;> simp [lastBreaks]
      · simp [lastBreaks, hd]
    · by_cases hfeed : c = '\n' <;> simp [lastBreaks, hc, hfeed]

theorem run_ending (place : Place) :
    endingNode.run place some =
      (ending? place.rest).map fun ending => place.skip ending.length := by
  unfold endingNode
  simp only [run_choice_cons, run_choice_nil, run_sequence_cons, run_sequence_nil, run_anchor,
    run_lineBreak, run_lastBreak, Option.orElse_eq_or, Option.or_none, Place.rest_skip,
    Place.skip_skip]
  rw [ending?, blankLine?, Option.map_or]
  congr 1
  · cases lineBreak? place.rest with
    | none => rfl
    | some first =>
      simp only [Option.bind_some]
      cases lineBreak? (place.rest.drop first.length) with
      | none => rfl
      | some second => simp
  · split <;> rfl

/-! ## Messages -/

/-- A character of any kind is taken. -/
theorem run_anyNode (place : Place) (accept : Place → Option α) :
    anyNode.run place accept = if place.rest = [] then none else accept (place.skip 1) := by
  unfold anyNode
  simp only [run_choice_cons, run_choice_nil, run_sequence_cons, run_sequence_nil, run_char,
    Option.orElse_eq_or, Option.or_none]
  cases hrest : place.rest with
  | nil => simp
  | cons c rest =>
    by_cases hc : c = '\n' <;> simp [CharSet.has, hc]

/-- The message ends before the first ending. -/
theorem run_message (place : Place) (start : Nat) :
    ((times anyNode 0 none false).run place fun next =>
        endingNode.run (next.capture 5 start) some) =
      some (place.reach ((splitMessage place.rest).1.length + (splitMessage place.rest).2.length)
        ((5, Extent.between start (place.offset + (splitMessage place.rest).1.length)) ::
          place.groups)) := by
  induction hrest : place.rest generalizing place with
  | nil =>
    rw [run_star rfl, run_anyNode, run_ending, Place.rest_capture, hrest]
    rfl
  | cons c rest ih =>
    rw [run_star rfl, run_anyNode, run_ending, Place.rest_capture, hrest, splitMessage]
    cases hending : ending? (c :: rest) with
    | some ending =>
      simp [Matcher.prefer, Place.capture_skip]
    | none =>
      have hlater := ih (place.skip 1) (by rw [Place.rest_skip, hrest]; rfl)
      simp [Matcher.prefer, hlater, Nat.add_assoc, Nat.add_comm 1]

/-! ## Headings -/

theorem has_decimal : (CharSet.union .nothing (.span '0' '9')).has = Char.isDigit := by
  funext c
  have hspan : (CharSet.union .nothing (.span '0' '9')).has c =
      (decide ('0' ≤ c) && decide (c ≤ '9')) := Bool.false_or _
  rw [hspan]
  rfl

/-- All digits are taken before a continuation that does not begin with a digit. -/
theorem run_count (index : Nat) (place : Place) {accept : Place → Option α}
    (haccept : ∀ next : Place, next.rest.head?.any Char.isDigit = true → accept next = none) :
    ((char (.only ':')).run place fun next => (group index countNode).run next accept) =
      (count? place.rest).bind fun part =>
        accept (place.reach (part.1.length + 1)
          ((index, ⟨place.offset + 1, part.1.length⟩) :: place.groups)) := by
  have hrun (next : Place) : (group index countNode).run next accept =
      ((times (.char (.union .nothing (.span '0' '9'))) 1 none true).run next fun behind =>
        accept (behind.capture index next.offset)).orElse fun _ => none := rfl
  have hwhole (next : Place) := run_rounds_whole_plus
    (takesOne_char (.union .nothing (.span '0' '9'))) rfl next
    (fun behind => accept (behind.capture index next.offset)) (by
      intro n hn _
      obtain ⟨d, hd, hhas⟩ := Text.has_of_lt_runLength hn
      rw [has_decimal] at hhas
      apply haccept
      simp [hd, hhas])
  rw [run_only]
  simp only [hrun, hwhole, has_decimal, Option.orElse_eq_or, Option.or_none]
  rcases hrest : place.rest with _ | ⟨c, rest⟩
  · rfl
  · by_cases hc : c = ':'
    · subst hc
      have hbehind : (place.skip 1).rest = rest := by
        rw [Place.rest_skip, hrest]
        rfl
      rw [List.head?_cons, if_pos rfl, count?, hbehind, Place.offset_skip, Place.skip_skip,
        Place.skip_capture, Text.runLength]
      by_cases hnone : rest.takeWhile Char.isDigit = []
      · simp [hnone]
      · simp [hnone, Nat.add_comm]
    · simp [hc, count?_eq_none hc]

theorem isPrefixOf_append (a b text : Text) :
    (a ++ b).isPrefixOf text = (a.isPrefixOf text && b.isPrefixOf (text.drop a.length)) := by
  induction a generalizing text with
  | nil => simp
  | cons c a ih =>
    cases text with
    | nil => rfl
    | cons d text =>
      simp only [List.cons_append, List.isPrefixOf, ih, Bool.and_assoc, List.length_cons,
        List.drop_succ_cons]

/-- If at most one of some items has a property, the first result is that of this item. -/
theorem findSome?_eq_bind_find? {β : Type} {items : List β} {has : β → Bool} {f : β → Option α}
    (hone : ∀ a b, has a = true → has b = true → a = b) :
    (items.findSome? fun item => if has item then f item else none) =
      (items.find? has).bind f := by
  induction items with
  | nil => rfl
  | cons item items ih =>
    rw [List.findSome?_cons, List.find?_cons, ih]
    by_cases hitem : has item = true
    · rw [if_pos hitem, hitem, Option.bind_some]
      cases hf : f item with
      | some value => rfl
      | none =>
        cases hfind : items.find? has with
        | none => rfl
        | some other =>
          rw [Option.bind_some, ← hone item other hitem (List.find?_some hfind), hf]
    · simp [hitem]

/-- The word of a severity is taken between a colon and a colon, each with a blank. -/
theorem run_severity (place : Place) (accept : Place → Option α) :
    (sequence [.char (.only ':'), .char (.only ' '), .group 4 severityNode, .char (.only ':'),
      .char (.only ' ')]).run place accept =
      (severity? place.rest).bind fun severity =>
        accept (place.reach (severity.label.toList.length + 4)
          ((4, ⟨place.offset + 2, severity.label.toList.length⟩) :: place.groups)) := by
  have hrun : (sequence [.char (.only ':'), .char (.only ' '), .group 4 severityNode,
      .char (.only ':'), .char (.only ' ')]).run place accept =
      (literal ": ".toList).run place fun next =>
        (choice ([Severity.warning, .error].map fun severity =>
          literal severity.label.toList)).run next fun behind =>
            (literal ": ".toList).run (behind.capture 4 next.offset) accept := rfl
  have hlength : ": ".toList.length = 2 := rfl
  have hone (a b : Severity)
      (ha : (": ".toList ++ a.label.toList ++ ": ".toList).isPrefixOf place.rest = true)
      (hb : (": ".toList ++ b.label.toList ++ ": ".toList).isPrefixOf place.rest = true) :
      a = b := by
    have ha' := severity?_eq_some_iff.mpr (List.isPrefixOf_iff_prefix.mp ha)
    rw [severity?_eq_some_iff.mpr (List.isPrefixOf_iff_prefix.mp hb)] at ha'
    exact (Option.some.inj ha').symm
  rw [hrun, severity?, ← findSome?_eq_bind_find? hone]
  simp only [run_literal, run_choice_map, isPrefixOf_append, Place.rest_skip, Place.skip_skip,
    Place.rest_capture, Place.offset_skip, Place.skip_capture, List.length_append, hlength,
    Bool.and_assoc]
  by_cases hblank : ": ".toList.isPrefixOf place.rest = true
  · rw [if_pos hblank]
    congr 1
    funext severity
    have hreach : 2 + severity.label.toList.length + 2 = severity.label.toList.length + 4 := by
      omega
    simp only [hblank, Bool.true_and, Bool.and_eq_true, ← ite_and, List.drop_drop,
      Place.skip_reach, hreach]
  · rw [Bool.not_eq_true] at hblank
    simp only [hblank, Bool.false_and, Bool.false_eq_true, if_false]
    rfl

/-- Where a digit follows, a colon is not taken. -/
theorem run_colon_of_digit {place : Place} (h : place.rest.head?.any Char.isDigit = true)
    (accept : Place → Option α) : (char (.only ':')).run place accept = none := by
  rw [run_only, if_neg]
  intro hcolon
  rw [hcolon] at h
  cases h

/-- The groups that a heading leaves behind. -/
def Heading.groups (heading : Heading) (offset : Nat) : List (Nat × Extent) :=
  [(4, ⟨offset + heading.row.length + heading.column.length + 4,
      heading.severity.label.toList.length⟩),
    (3, ⟨offset + heading.row.length + 2, heading.column.length⟩),
    (2, ⟨offset + 1, heading.row.length⟩)]

/-- A heading is taken as a whole. -/
theorem run_heading (place : Place) (accept : Place → Option α) :
    (sequence headingNodes).run place accept =
      (heading? place.rest).bind fun heading =>
        accept (place.reach heading.text.length (heading.groups place.offset ++ place.groups)) := by
  have hrun : (sequence headingNodes).run place accept =
      (char (.only ':')).run place fun next => (group 2 countNode).run next fun behindRow =>
        (char (.only ':')).run behindRow fun next =>
          (group 3 countNode).run next fun behindColumn =>
            (sequence [.char (.only ':'), .char (.only ' '), .group 4 severityNode,
              .char (.only ':'), .char (.only ' ')]).run behindColumn accept := rfl
  have hcolumn (behindRow : Place) := @run_count α 3 behindRow
    (fun behindColumn => (sequence [.char (.only ':'), .char (.only ' '),
      .group 4 severityNode, .char (.only ':'), .char (.only ' ')]).run behindColumn accept)
    fun next hdigit => run_colon_of_digit hdigit _
  rw [hrun, run_count 2 place fun next hdigit => run_colon_of_digit hdigit _]
  simp only [hcolumn]
  simp only [run_severity, heading?, Option.bind_eq_bind, Option.bind_assoc, Place.rest_reach,
    Place.offset_reach, Place.groups_reach, Place.reach_reach]
  cases hrow : count? place.rest with
  | none => rfl
  | some row =>
    obtain ⟨row, behindRow⟩ := row
    obtain ⟨hrest, -⟩ := count?_eq_some_iff.mp hrow
    have hbehindRow : place.rest.drop (row.length + 1) = behindRow := by
      rw [hrest]
      simp
    simp only [Option.bind_some, hbehindRow]
    cases hcolumn : count? behindRow with
    | none => rfl
    | some column =>
      obtain ⟨column, behindColumn⟩ := column
      obtain ⟨hrest', -⟩ := count?_eq_some_iff.mp hcolumn
      have hbehindColumn :
          place.rest.drop (row.length + 1 + (column.length + 1)) = behindColumn := by
        rw [← List.drop_drop, hbehindRow, hrest']
        simp
      simp only [Option.bind_some, hbehindColumn]
      cases hseverity : severity? behindColumn with
      | none => rfl
      | some severity =>
        simp only [Option.bind_some, Option.pure_def]
        have hlength : row.length + 1 + (column.length + 1) + (severity.label.toList.length + 4) =
            (Heading.mk row column severity).text.length := by
          rw [Heading.length_text]
          dsimp only
          omega
        have hlabel : place.offset + (row.length + 1 + (column.length + 1)) + 2 =
            place.offset + row.length + column.length + 4 := by
          omega
        rw [hlength, hlabel, ← Nat.add_assoc]
        rfl

/-! ## Entries -/

/-- The groups that an entry leaves behind. -/
def Entry.groups (entry : Entry) (offset : Nat) : List (Nat × Extent) :=
  (5, ⟨offset + entry.file.length + entry.heading.text.length, entry.message.length⟩) ::
    (entry.heading.groups (offset + entry.file.length) ++ [(1, ⟨offset, entry.file.length⟩)])

/--
The file is what stands before the last heading on the line.  Whatever follows this heading is
accepted, so no earlier one is tried.
-/
theorem run_file (place : Place) (start : Nat) (accept : Place → Place) :
    ((many (.complement (.only '\n'))).run place fun next =>
      (sequence headingNodes).run (next.capture 1 start) fun behind => some (accept behind)) =
      (lastHeading? place.rest).map fun part =>
        accept (place.reach (part.1.length + part.2.text.length)
          (part.2.groups (place.offset + part.1.length) ++
            (1, Extent.between start (place.offset + part.1.length)) :: place.groups)) := by
  induction hrest : place.rest generalizing place with
  | nil =>
    rw [many, run_star rfl, run_char, hrest, run_heading, Place.rest_capture, hrest]
    rfl
  | cons c rest ih =>
    have hlater := ih (place.skip 1) (by rw [Place.rest_skip, hrest]; rfl)
    have hline : (c :: rest).head?.any (CharSet.complement (.only '\n')).has =
        !decide (c = '\n') :=
      congrArg not (CharSet.has_only '\n' c)
    rw [many] at hlater ⊢
    rw [run_star rfl, run_char, hrest, run_heading, Place.rest_capture, hrest, lastHeading?,
      hlater, Matcher.prefer, if_pos rfl, Option.orElse_eq_or, Option.map_or, Option.map_map,
      Option.map_map]
    congr 1
    · by_cases hc : c = '\n'
      · rw [if_pos hc, hline, decide_eq_true hc]
        rfl
      · rw [if_neg hc, hline, decide_eq_false hc, Bool.not_false, if_pos rfl]
        congr 1
        funext part
        simp only [Function.comp_apply, List.length_cons, Place.offset_skip, Place.groups_skip,
          Place.reach_skip, Nat.add_comm _ 1, ← Nat.add_assoc]
    · cases heading? (c :: rest) with
      | none => rfl
      | some heading =>
        simp [Place.reach_capture]
        rfl

/-- Trees in a row are matched one part after the other. -/
theorem run_sequence_append (before behind : List Node) (place : Place)
    (accept : Place → Option α) :
    (sequence (before ++ behind)).run place accept =
      (sequence before).run place fun next => (sequence behind).run next accept := by
  induction before generalizing place with
  | nil => rfl
  | cons node before ih =>
    rw [List.cons_append, run_sequence_cons, run_sequence_cons]
    congr 1
    funext next
    exact ih next

/-- The tree takes the entry that begins at a place. -/
theorem run_tree (place : Place) (hgroups : place.groups = []) :
    tree.run place some = (entryOf? place.rest).map fun entry =>
      place.reach entry.whole.length (entry.groups place.offset) := by
  have hrun : tree.run place some =
      (((many (.complement (.only '\n'))).run place fun next =>
        (sequence (headingNodes ++ messageNodes)).run (next.capture 1 place.offset) some).orElse
          fun _ => none).orElse fun _ => none := rfl
  have hmessage (behind : Place) : (sequence messageNodes).run behind some =
      (((times anyNode 0 none false).run behind fun next =>
        endingNode.run (next.capture 5 behind.offset) some).orElse fun _ => none) := rfl
  simp only [hrun, run_sequence_append, hmessage, run_message, run_file, Option.orElse_eq_or,
    Option.or_none, hgroups]
  rw [entryOf?, Option.map_map]
  congr 1
  funext part
  obtain ⟨file, heading⟩ := part
  simp only [Function.comp_apply, Place.reach_reach, Place.rest_reach, Place.offset_reach,
    Place.groups_reach]
  generalize splitMessage (place.rest.drop (file.length + heading.text.length)) = behind
  rw [Extent.between_add, Extent.between_add]
  simp [Entry.whole, Entry.text, Entry.groups, Nat.add_assoc]

/-- The match that takes an entry at an offset of a report. -/
def Entry.found (entry : Entry) (report : Text) (offset : Nat) : Found :=
  ⟨offset, (Place.at_ report offset).reach entry.whole.length (entry.groups offset)⟩

@[simp]
theorem Entry.extent_found (entry : Entry) (report : Text) (offset : Nat) :
    (entry.found report offset).extent = ⟨offset, entry.whole.length⟩ :=
  Extent.between_add _ _

/-- The match at an offset of a report takes the entry there. -/
theorem matchAt?_patternNode (report : Text) (offset : Nat) :
    patternNode.matchAt? (Place.at_ report offset) =
      (entryOf? (report.drop offset)).map fun entry => entry.found report offset := by
  rw [Node.matchAt?, patternNode_eq, run_tree _ rfl, Option.map_map]
  rfl

end Diagnostic

end ScratchEditor

import Mathlib.Data.List.Basic
import ScratchEditor.Pane.Paint

/-!
# What a terminal shows

A terminal reads a painted text character by character.  An escape sequence changes the
attributes, which stay set until they are taken back, and every other character is shown in
the attributes of the moment.  Read in this way a painted text shows its characters, each in
the style of the last range that holds it, and the sequences stand only where something
changes.

Main definitions:

- `Attributes` and `Attributes.change?`: what the codes of a sequence do.
- `Terminal`, `Terminal.feed` and `Terminal.feedAll`: reading a text.
- `lastStyle?` and `isUnderlined`: what ranges ask for at an offset.
- `Terminal.Shows` and `Draws`: a text that is shown as ranges ask.

Main results:

- `Terminal.feedAll_transition`: what stands between two characters sets the next attributes.
- `Terminal.feedAll_paintFrom`: what the rest of a painted text shows.
- `draws_paint`: painted texts, highlighted texts and output are shown as their ranges ask.
-/

namespace ScratchEditor

/-! ## Attributes -/

/-- The attributes in which a terminal shows a character. -/
structure Attributes where
  bold : Bool
  underlined : Bool
  /-- The amounts of red, green and blue, if a color is set. -/
  color : Option (Nat × Nat × Nat)
deriving DecidableEq

namespace Attributes

/-- The attributes of a terminal on which nothing is set. -/
def plain : Attributes :=
  ⟨false, false, none⟩

/-- The attributes that show a style, underlined or not. -/
def of (style : Option Style) (underlined : Bool) : Attributes where
  bold := style.any (·.bold)
  underlined := underlined
  color := style.map fun style =>
    (style.color.red.toNat, style.color.green.toNat, style.color.blue.toNat)

/-- Codes change attributes from left to right; codes that are not known here are refused. -/
def change? : Attributes → List Nat → Option Attributes
  | attributes, [] => some attributes
  | _, 0 :: codes => change? plain codes
  | attributes, 1 :: codes => change? { attributes with bold := true } codes
  | attributes, 4 :: codes => change? { attributes with underlined := true } codes
  | attributes, 38 :: 2 :: red :: green :: blue :: codes =>
    change? { attributes with color := some (red, green, blue) } codes
  | _, _ => none

end Attributes

/-! ## Terminals -/

/-- A character on the screen. -/
structure ShownChar where
  char : Char
  attributes : Attributes
  /-- Whether an escape sequence stands directly before it. -/
  marked : Bool
deriving DecidableEq

/-- How far a terminal is in an escape sequence. -/
inductive TerminalMode
  | ground
  | escape
  /-- Behind some codes, in the digits of the next one. -/
  | codes (before : List Nat) (digits : Text)
deriving DecidableEq

/-- A terminal that reads a text. -/
structure Terminal where
  mode : TerminalMode
  attributes : Attributes
  /-- Whether an escape sequence was read since the last character was shown. -/
  marked : Bool
  /-- The characters on the screen, the first one first. -/
  screen : List ShownChar
deriving DecidableEq

namespace Terminal

/-- A terminal that has read nothing. -/
def start : Terminal :=
  ⟨.ground, .plain, false, []⟩

/-- Reads a character; what is no sequence of known codes is refused. -/
def feed (terminal : Terminal) (c : Char) : Option Terminal :=
  match terminal.mode with
  | .ground =>
    if c = '\x1b' then some { terminal with mode := .escape }
    else some { terminal with
      marked := false
      screen := terminal.screen ++ [⟨c, terminal.attributes, terminal.marked⟩] }
  | .escape => if c = '[' then some { terminal with mode := .codes [] [] } else none
  | .codes before digits =>
    if c.isDigit then some { terminal with mode := .codes before (digits ++ [c]) }
    else if digits = [] then none
    else
      let codes := before ++ [Nat.ofDigitChars 10 digits 0]
      if c = ';' then some { terminal with mode := .codes codes [] }
      else if c = 'm' then
        (terminal.attributes.change? codes).map fun attributes =>
          { terminal with mode := .ground, attributes := attributes, marked := true }
      else none

/-- Reads a text. -/
def feedAll (terminal : Terminal) (text : Text) : Option Terminal :=
  text.foldlM feed terminal

end Terminal

/-! ## What ranges ask for -/

/-- The style of the last range that holds an offset. -/
def lastStyle? (styles : List StyledExtent) (offset : Nat) : Option Style :=
  (styles.filter (·.extent.holds offset)).getLast?.map (·.style)

/-- Whether some range holds an offset. -/
def isUnderlined (underlined : List Extent) (offset : Nat) : Bool :=
  underlined.any (·.holds offset)

/-- A terminal that has shown a text as ranges ask, and on which nothing is set any more. -/
structure Terminal.Shows (terminal : Terminal) (text : Text) (styles : List StyledExtent)
    (underlined : List Extent) : Prop where
  mode : terminal.mode = .ground
  reset : terminal.attributes = .plain
  chars : terminal.screen.map (·.char) = text
  attributes : ∀ (offset : Nat) (shown : ShownChar), terminal.screen[offset]? = some shown →
    shown.attributes = .of (lastStyle? styles offset) (isUnderlined underlined offset)
  /-- Sequences stand between characters that differ in their style or in being underlined. -/
  marked : ∀ (offset : Nat) (shown : ShownChar), terminal.screen[offset + 1]? = some shown →
    (shown.marked = true ↔ lastStyle? styles offset ≠ lastStyle? styles (offset + 1) ∨
      isUnderlined underlined offset ≠ isUnderlined underlined (offset + 1))

/-- A painted text that a terminal shows as ranges ask. -/
def Draws (painted text : Text) (styles : List StyledExtent) (underlined : List Extent) : Prop :=
  ∃ terminal, Terminal.start.feedAll painted = some terminal ∧ terminal.Shows text styles underlined

/-! ## Cells -/

namespace Cell

/-- The attributes that show a cell. -/
def attributes (cell : Cell) : Attributes :=
  .of cell.style cell.underlined

/-- The numbers in the sequence of a cell. -/
def numbers (cell : Cell) : List Nat :=
  (cell.style.map fun style => (if style.bold then [1] else []) ++
    [38, 2, style.color.red.toNat, style.color.green.toNat, style.color.blue.toNat]).getD [] ++
      if cell.underlined then [4] else []

/-- The sequence of a cell is written with its numbers. -/
theorem escape_eq (cell : Cell) :
    cell.escape = ['\x1b', '['] ++ (joinCodes (cell.numbers.map decimal) ++ ['m']) := by
  have hdecimal : decimal 1 = ['1'] ∧ decimal 2 = ['2'] ∧ decimal 4 = ['4'] ∧
      decimal 38 = ['3', '8'] := by decide
  obtain ⟨hone, htwo, hfour, hcolor⟩ := hdecimal
  obtain ⟨style, underlined⟩ := cell
  cases style with
  | none => cases underlined <;> simp [escape, codes, numbers, joinCodes, hfour]
  | some style =>
    obtain ⟨color, bold⟩ := style
    cases underlined <;> cases bold <;>
      simp [escape, codes, numbers, styleCodes, joinCodes, hone, htwo, hfour, hcolor]

/-- Only a plain cell has no numbers. -/
theorem numbers_ne_nil {cell : Cell} (h : cell ≠ .plain) : cell.numbers ≠ [] := by
  obtain ⟨style, underlined⟩ := cell
  cases style with
  | some style => simp [numbers]
  | none =>
    cases underlined with
    | true => simp [numbers]
    | false => exact absurd rfl h

/-- The numbers of a cell set its attributes. -/
theorem change?_numbers (cell : Cell) :
    Attributes.plain.change? cell.numbers = some cell.attributes := by
  obtain ⟨style, underlined⟩ := cell
  cases style with
  | none => cases underlined <;> rfl
  | some style =>
    obtain ⟨color, bold⟩ := style
    cases underlined <;> cases bold <;> rfl

end Cell

/-- The cell at an offset is what the ranges ask for, if their ends are words. -/
theorem cellAt_eq {styles : List StyledExtent} {underlined : List Extent}
    (hstyles : ∀ styled ∈ styles, styled.extent.Fits)
    (hunderlined : ∀ extent ∈ underlined, extent.Fits)
    (size offset : Nat) :
    cellAt size styles underlined offset =
      ⟨lastStyle? styles offset, isUnderlined underlined offset⟩ := by
  have hcovers : styles.filter (·.extent.covers size offset) =
      styles.filter (·.extent.holds offset) :=
    List.filter_congr fun styled hmem => (hstyles styled hmem).covers_eq size offset
  have hlast : styles.reverse.find? (·.extent.covers size offset) =
      (styles.filter (·.extent.holds offset)).getLast? := by
    rw [← List.head?_filter, List.filter_reverse, List.head?_reverse, hcovers]
  have hany : underlined.any (·.covers size offset) = isUnderlined underlined offset := by
    rw [isUnderlined, Bool.eq_iff_iff, List.any_eq_true, List.any_eq_true]
    exact exists_congr fun extent => and_congr_right fun hmem => by
      rw [(hunderlined extent hmem).covers_eq]
  rw [cellAt, hlast, hany]
  rfl

/-- The cell before an offset; nothing is set before the first one. -/
def cellBefore (size : Nat) (styles : List StyledExtent) (underlined : List Extent) : Nat → Cell
  | 0 => .plain
  | offset + 1 => cellAt size styles underlined offset

/-- How the character at an offset is shown. -/
def shownAt (size : Nat) (styles : List StyledExtent) (underlined : List Extent) (c : Char)
    (offset : Nat) : ShownChar where
  char := c
  attributes := (cellAt size styles underlined offset).attributes
  marked := cellAt size styles underlined offset != cellBefore size styles underlined offset

/-! ## Reading escape sequences -/

namespace Terminal

variable {terminal : Terminal}

theorem feedAll_append (terminal : Terminal) (a b : Text) :
    terminal.feedAll (a ++ b) = (terminal.feedAll a).bind fun next => next.feedAll b :=
  List.foldlM_append

theorem feedAll_cons (terminal : Terminal) (c : Char) (text : Text) :
    terminal.feedAll (c :: text) = (terminal.feed c).bind fun next => next.feedAll text :=
  List.foldlM_cons

/-- Digits are put behind those before them. -/
theorem feedAll_digits {before : List Nat} {digits : Text}
    (hmode : terminal.mode = .codes before digits) {more : Text}
    (hmore : ∀ c ∈ more, c.isDigit = true) :
    terminal.feedAll more = some { terminal with mode := .codes before (digits ++ more) } := by
  induction more generalizing terminal digits with
  | nil =>
    rw [List.append_nil, ← hmode]
    rfl
  | cons c more ih =>
    have hfeed :
        terminal.feed c = some { terminal with mode := .codes before (digits ++ [c]) } := by
      rw [feed, hmode]
      exact if_pos (hmore c List.mem_cons_self)
    rw [feedAll_cons, hfeed, Option.bind_some,
      ih rfl fun d hd => hmore d (List.mem_cons_of_mem c hd), List.append_assoc]
    rfl

/-- A code is read as the number that it writes, and then a separator. -/
theorem feedAll_code {before : List Nat} (hmode : terminal.mode = .codes before []) (n : Nat)
    (separator : Char) (rest : Text) :
    terminal.feedAll (decimal n ++ separator :: rest) =
      ({ terminal with mode := .codes before (decimal n) }.feed separator).bind
        fun next => next.feedAll rest := by
  rw [feedAll_append, feedAll_digits hmode (isDigit_of_mem_decimal n), Option.bind_some,
    feedAll_cons, List.nil_append]

/-- Some codes up to the end of a sequence change the attributes. -/
theorem feedAll_joinCodes {before : List Nat} (hmode : terminal.mode = .codes before [])
    {codes : List Nat} (hcodes : codes ≠ []) :
    terminal.feedAll (Cell.joinCodes (codes.map decimal) ++ ['m']) =
      (terminal.attributes.change? (before ++ codes)).map fun attributes =>
        { terminal with mode := .ground, attributes := attributes, marked := true } := by
  induction codes generalizing terminal before with
  | nil => exact absurd rfl hcodes
  | cons code codes ih =>
    cases codes with
    | nil =>
      have hjoin : Cell.joinCodes ([code].map decimal) ++ ['m'] = decimal code ++ 'm' :: [] := rfl
      have hfeed : { terminal with mode := .codes before (decimal code) }.feed 'm' =
          (terminal.attributes.change? (before ++ [code])).map fun attributes =>
            { terminal with mode := .ground, attributes := attributes, marked := true } := by
        simp [feed, decimal_ne_nil, ofDigitChars_decimal]
      rw [hjoin, feedAll_code hmode, hfeed]
      exact Option.bind_fun_some _
    | cons next codes =>
      have hjoin : Cell.joinCodes ((code :: next :: codes).map decimal) ++ ['m'] =
          decimal code ++ ';' :: (Cell.joinCodes ((next :: codes).map decimal) ++ ['m']) := by
        simp [Cell.joinCodes]
      have hfeed : { terminal with mode := .codes before (decimal code) }.feed ';' =
          some { terminal with mode := .codes (before ++ [code]) [] } := by
        simp [feed, decimal_ne_nil, ofDigitChars_decimal]
      rw [hjoin, feedAll_code hmode, hfeed, Option.bind_some, ih rfl (List.cons_ne_nil next codes),
        List.append_assoc]
      rfl

/-- A sequence changes the attributes by its codes. -/
theorem feedAll_sequence (hmode : terminal.mode = .ground) {codes : List Nat}
    (hcodes : codes ≠ []) :
    terminal.feedAll (['\x1b', '['] ++ (Cell.joinCodes (codes.map decimal) ++ ['m'])) =
      (terminal.attributes.change? codes).map fun attributes =>
        { terminal with attributes := attributes, marked := true } := by
  have hbegin : terminal.feedAll ['\x1b', '['] = some { terminal with mode := .codes [] [] } := by
    simp [feedAll_cons, feed, hmode]
    rfl
  have hjoin := @feedAll_joinCodes { terminal with mode := .codes [] [] } [] rfl codes hcodes
  rw [feedAll_append, hbegin, Option.bind_some, hjoin, List.nil_append, ← hmode]

/-- The sequence of a cell sets its attributes where nothing is set. -/
theorem feedAll_escape (hmode : terminal.mode = .ground) (hplain : terminal.attributes = .plain)
    {cell : Cell} (hcell : cell ≠ .plain) :
    terminal.feedAll cell.escape =
      some { terminal with attributes := cell.attributes, marked := true } := by
  rw [Cell.escape_eq, feedAll_sequence hmode (Cell.numbers_ne_nil hcell), hplain,
    Cell.change?_numbers, Option.map_some]

/-- Nothing is set behind the sequence that takes all attributes back. -/
theorem feedAll_resetSequence (hmode : terminal.mode = .ground) :
    terminal.feedAll resetSequence =
      some { terminal with attributes := .plain, marked := true } := by
  have hreset := feedAll_sequence hmode (List.cons_ne_nil 0 [])
  rw [Attributes.change?, Attributes.change?, Option.map_some] at hreset
  exact hreset

/--
What stands between two characters takes the attributes of the first one back and sets those of
the second one, so none of the first one is left.
-/
theorem feedAll_transition (hmode : terminal.mode = .ground) {current next : Cell}
    (hcurrent : terminal.attributes = current.attributes) (hmarked : terminal.marked = false) :
    terminal.feedAll (transition current next) =
      some { terminal with attributes := next.attributes, marked := next != current } := by
  by_cases hsame : next = current
  · rw [hsame, transition_self, bne_self_eq_false, ← hcurrent, ← hmarked]
    rfl
  · have hmark : (next != current) = true := bne_iff_ne.mpr hsame
    rw [transition, if_neg hsame, hmark]
    by_cases hplain : current = .plain
    · have hnext : next ≠ .plain := fun heq => hsame (heq.trans hplain.symm)
      rw [hplain] at hcurrent
      rw [if_pos hplain, if_neg hnext, List.nil_append]
      exact feedAll_escape hmode hcurrent hnext
    · rw [if_neg hplain, feedAll_append, feedAll_resetSequence hmode, Option.bind_some]
      by_cases hnext : next = .plain
      · rw [if_pos hnext, hnext]
        rfl
      · rw [if_neg hnext]
        exact @feedAll_escape { terminal with attributes := .plain, marked := true } hmode rfl
          next hnext

/-- A character is shown in the attributes that are set. -/
theorem feed_of_ne (hmode : terminal.mode = .ground) {c : Char} (hc : c ≠ '\x1b') :
    terminal.feed c = some { terminal with
      marked := false
      screen := terminal.screen ++ [⟨c, terminal.attributes, terminal.marked⟩] } := by
  rw [feed, hmode]
  exact if_neg hc

/-! ## Reading painted texts -/

variable (size : Nat) (styles : List StyledExtent) (underlined : List Extent)

/-- The rest of a painted text shows its characters, and nothing is set behind it. -/
theorem feedAll_paintFrom {text : Text} (htext : '\x1b' ∉ text) (hmode : terminal.mode = .ground)
    {offset : Nat}
    (hbefore : terminal.attributes = (cellBefore size styles underlined offset).attributes)
    (hmarked : terminal.marked = false) :
    ∃ marked, terminal.feedAll
        (paintFrom size styles underlined offset (cellBefore size styles underlined offset) text) =
      some { terminal with
        attributes := .plain
        marked := marked
        screen := terminal.screen ++
          (text.zipIdx offset).map fun entry =>
            shownAt size styles underlined entry.1 entry.2 } := by
  induction text generalizing terminal offset with
  | nil =>
    rw [paintFrom, List.zipIdx_nil, List.map_nil, List.append_nil]
    by_cases hplain : cellBefore size styles underlined offset = .plain
    · rw [if_pos hplain]
      rw [hplain] at hbefore
      refine ⟨terminal.marked, ?_⟩
      rw [← show terminal.attributes = .plain from hbefore]
      rfl
    · rw [if_neg hplain]
      exact ⟨true, feedAll_resetSequence hmode⟩
  | cons c rest ih =>
    rw [List.mem_cons, not_or] at htext
    obtain ⟨hc, hrest⟩ := htext
    let next := cellAt size styles underlined offset
    let changed : Terminal := { terminal with
      attributes := next.attributes
      marked := next != cellBefore size styles underlined offset }
    have hchange : terminal.feedAll (transition (cellBefore size styles underlined offset) next) =
        some changed := feedAll_transition hmode hbefore hmarked
    have hshow : changed.feed c = some { changed with
        marked := false
        screen := terminal.screen ++ [shownAt size styles underlined c offset] } :=
      @feed_of_ne changed hmode c (Ne.symm hc)
    obtain ⟨marked, hlater⟩ := @ih { changed with
      marked := false
      screen := terminal.screen ++ [shownAt size styles underlined c offset] } hrest hmode
        (offset + 1) rfl rfl
    have hscreen : terminal.screen ++ ((c :: rest).zipIdx offset).map
        (fun entry => shownAt size styles underlined entry.1 entry.2) =
      terminal.screen ++ [shownAt size styles underlined c offset] ++ (rest.zipIdx (offset + 1)).map
        fun entry => shownAt size styles underlined entry.1 entry.2 := by
      rw [List.zipIdx_cons, List.map_cons, List.append_assoc]
      rfl
    refine ⟨marked, ?_⟩
    rw [paintFrom, feedAll_append, hchange, Option.bind_some, feedAll_cons, hshow, Option.bind_some,
      hscreen]
    exact hlater

omit size in
/-- A painted text shows every character as its cell asks. -/
theorem feedAll_paint {text : Text} (htext : '\x1b' ∉ text) :
    ∃ marked, start.feedAll (paint text styles underlined) = some { start with
      marked := marked
      screen := text.zipIdx.map fun entry =>
        shownAt text.length styles underlined entry.1 entry.2 } :=
  feedAll_paintFrom text.length styles underlined htext rfl rfl rfl

omit styles underlined in
/-- A screen of characters that are shown as their cells ask is one that ranges ask for, if their
ends are words. -/
theorem shows_of_screen {styles : List StyledExtent} {underlined : List Extent}
    (hstyles : ∀ styled ∈ styles, styled.extent.Fits)
    (hunderlined : ∀ extent ∈ underlined, extent.Fits)
    {text : Text} (hmode : terminal.mode = .ground)
    (hreset : terminal.attributes = .plain)
    (hscreen : terminal.screen =
      text.zipIdx.map fun entry => shownAt size styles underlined entry.1 entry.2) :
    terminal.Shows text styles underlined := by
  have hshown (offset : Nat) (shown : ShownChar) (h : terminal.screen[offset]? = some shown) :
      ∃ c, shown = shownAt size styles underlined c offset := by
    rw [hscreen, List.getElem?_map, List.getElem?_zipIdx, Nat.zero_add, Option.map_map] at h
    obtain ⟨c, -, rfl⟩ := Option.map_eq_some_iff.mp h
    exact ⟨c, rfl⟩
  constructor
  case mode => exact hmode
  case reset => exact hreset
  case chars =>
    rw [hscreen, List.map_map]
    exact List.zipIdx_map_fst 0 text
  case attributes =>
    intro offset shown h
    obtain ⟨c, rfl⟩ := hshown offset shown h
    simp [shownAt, cellAt_eq hstyles hunderlined, Cell.attributes]
  case marked =>
    intro offset shown h
    obtain ⟨c, rfl⟩ := hshown (offset + 1) shown h
    rw [shownAt, cellBefore, bne_iff_ne, cellAt_eq hstyles hunderlined,
      cellAt_eq hstyles hunderlined, ne_comm, Ne, Cell.mk.injEq, not_and_or]

end Terminal

/--
A terminal shows a text without escape characters as its ranges ask, wherever they stand, as long
as their ends are words: every character is in the style of the last range that holds it and is
underlined just if some range holds it.  Sequences stand only where that changes, and nothing is
set behind the last character.
-/
theorem draws_paint {text : Text} (htext : '\x1b' ∉ text) :
    (∀ (styles : List StyledExtent) (underlined : List Extent),
      (∀ styled ∈ styles, styled.extent.Fits) → (∀ extent ∈ underlined, extent.Fits) →
        Draws (paint text styles underlined) text styles underlined) ∧
      (∀ spans : List Span, (∀ span ∈ spans, span.extent.Fits) →
        Draws (paintSpans text spans) text
          (spans.map fun span => ⟨span.extent, span.style⟩) []) ∧
      ∀ chunk : Chunk, chunk.text = text → (∀ styled ∈ chunk.styles, styled.extent.Fits) →
        (∀ link ∈ chunk.links, link.extent.Fits) →
          Draws (paintChunk chunk) text chunk.styles (chunk.links.map (·.extent)) := by
  have hpaint (styles : List StyledExtent) (underlined : List Extent)
      (hstyles : ∀ styled ∈ styles, styled.extent.Fits)
      (hunderlined : ∀ extent ∈ underlined, extent.Fits) :
      Draws (paint text styles underlined) text styles underlined := by
    obtain ⟨marked, hread⟩ := Terminal.feedAll_paint styles underlined htext
    exact ⟨_, hread, Terminal.shows_of_screen _ hstyles hunderlined rfl rfl rfl⟩
  refine ⟨hpaint, fun spans hspans => hpaint _ [] ?_ (List.forall_mem_nil _), ?_⟩
  · exact List.forall_mem_map.mpr hspans
  · rintro chunk rfl hstyles hlinks
    exact hpaint chunk.styles _ hstyles (List.forall_mem_map.mpr hlinks)

/-- Styles that lie over each other; one goes past a text of four characters, and one is empty. -/
def mixedStyles : List StyledExtent :=
  [⟨⟨0, 2⟩, .heavy (.rgb 204 0 0)⟩, ⟨⟨2, 9⟩, .regular (.rgb 0 153 0)⟩,
    ⟨⟨1, 2⟩, .regular (.rgb 0 0 255)⟩, ⟨⟨3, 0⟩, .heavy (.rgb 0 0 0)⟩]

/-- Ranges that overlap, go past the text or are empty are drawn, the later ones over the others. -/
theorem draws_paint_mixedStyles :
    '\x1b' ∉ ['a', 'b', 'c', 'd'] ∧ (∀ styled ∈ mixedStyles, styled.extent.Fits) ∧
      (∀ extent ∈ [Extent.mk 2 0, Extent.mk 3 7], extent.Fits) ∧
      Draws (paint ['a', 'b', 'c', 'd'] mixedStyles [⟨2, 0⟩, ⟨3, 7⟩]) ['a', 'b', 'c', 'd']
        mixedStyles [⟨2, 0⟩, ⟨3, 7⟩] ∧
      (List.range 4).map (lastStyle? mixedStyles) = [some (.heavy (.rgb 204 0 0)),
        some (.regular (.rgb 0 0 255)), some (.regular (.rgb 0 0 255)),
        some (.regular (.rgb 0 153 0))] ∧
      (List.range 4).map (isUnderlined [⟨2, 0⟩, ⟨3, 7⟩]) = [false, false, false, true] := by
  have hstyles : ∀ styled ∈ mixedStyles, styled.extent.Fits := by decide
  have hunderlined : ∀ extent ∈ [Extent.mk 2 0, Extent.mk 3 7], extent.Fits := by decide
  exact ⟨by decide, hstyles, hunderlined,
    (draws_paint (by decide)).1 mixedStyles [⟨2, 0⟩, ⟨3, 7⟩] hstyles hunderlined, by decide,
    by decide⟩

/-- The longest range that begins on a second character ends at zero, so nothing is drawn in its
style, though it holds the offsets of the second and the third character. -/
theorem not_draws_paint_longest :
    let styles : List StyledExtent := [⟨⟨1, Extent.wordSize - 1⟩, .regular (.rgb 204 0 0)⟩]
    paint ['a', 'b', 'c'] styles [] = ['a', 'b', 'c'] ∧
      (List.range 3).map (lastStyle? styles) =
        [none, some (.regular (.rgb 204 0 0)), some (.regular (.rgb 204 0 0))] ∧
      ¬ Draws (paint ['a', 'b', 'c'] styles []) ['a', 'b', 'c'] styles [] := by
  intro styles
  have hplain : paint ['a', 'b', 'c'] styles [] = ['a', 'b', 'c'] := by decide
  have hstyle : lastStyle? styles 1 = some (.regular (.rgb 204 0 0)) := by decide
  refine ⟨hplain, by decide, ?_⟩
  rintro ⟨terminal, hread, hshows⟩
  rw [hplain] at hread
  obtain rfl := Option.some.inj hread
  have hshown := hshows.attributes 1 ⟨'b', .plain, false⟩ rfl
  rw [hstyle] at hshown
  exact absurd hshown (by decide)

end ScratchEditor

import ScratchEditor.Proofs.Pattern.Cut
import ScratchEditor.Proofs.Token.Groups
import ScratchEditor.Proofs.Token.Keywords

/-!
# The trees of the table

The patterns of the table are read as fixed trees, apart from that of the keywords.  Each
of them either stays on a line, or asks for no condition, or runs to the end of the text.

Main definitions:

- `Node.forKind`: the tree for each kind of token.

Main results:

- `Category.read_forKind?`: the patterns of the table are read as these trees.
- `Classifier.parse_of_mem_table`: the categories that are looked for have room for them.
-/

namespace ScratchEditor

deriving instance DecidableEq for CharSet
deriving instance DecidableEq for Node
deriving instance DecidableEq for Pattern

/-! ## Trees -/

/-- A set of characters other than two. -/
def CharSet.neither (a b : Char) : CharSet :=
  .complement (.union (.union .nothing (.only a)) (.only b))

/-- Every character. -/
def CharSet.every : CharSet :=
  .union (.union .nothing .blanks) (.complement .blanks)

/-- The characters of words of ASCII. -/
def CharSet.asciiWord : CharSet :=
  .union (.union (.union (.union .nothing (.span 'A' 'Z')) (.span 'a' 'z')) (.span '0' '9'))
    (.span '_' '_')

namespace Node

/-- As many characters of a set as there are. -/
def many (set : CharSet) : Node :=
  .times (.char set) 0 none true

/-- One or more decimal digits. -/
def digits : Node :=
  .times (.char .digits) 1 none true

/-- A backslash and a character on the same line. -/
def escaped : Node :=
  .sequence [.char (.only '\\'), .char (.complement (.only '\n'))]

/-- A character in single quotes. -/
def character : Node :=
  .choice [.sequence [.char (.only '\''),
    .choice [escaped, .sequence [many (.neither '\'' '\\')]], .char (.only '\'')]]

/-- A number with at most one fraction. -/
def number : Node :=
  .choice [.sequence [.anchor .wordEdge, digits,
    .times (.choice [.sequence [.char (.only '.'), digits]]) 0 (some 1) true, .anchor .wordEdge]]

/-- A word that begins with a capital letter. -/
def typeName : Node :=
  .choice [.sequence [.anchor .wordEdge, .char (.union .nothing (.span 'A' 'Z')),
    many .asciiWord, .anchor .wordEdge]]

/-- A string in double quotes. -/
def string : Node :=
  .choice [.sequence [.char (.only '"'),
    .times (.choice [escaped, .sequence [.char (.neither '"' '\\')]]) 0 none true,
    .char (.only '"')]]

/-- A block comment that is closed. -/
def closedComment : Node :=
  .sequence [.char (.only '/'), .char (.only '*'), .times (.char .every) 0 none false,
    .char (.only '*'), .char (.only '/')]

/-- A block comment up to the end of the text. -/
def openComment : Node :=
  .sequence [.char (.only '/'), .char (.only '*'), many .every, .anchor .textStop]

/-- A comment up to the end of the line. -/
def lineComment : Node :=
  .sequence [.char (.only '/'), .char (.only '/'), many (.complement (.only '\n'))]

/-- A comment of either kind. -/
def comment : Node :=
  .choice [closedComment, openComment, lineComment]

/-- The tree for each kind of token. -/
def forKind (keywords : List Text) : TokenKind → Node
  | .character => character
  | .number => number
  | .keyword => anyKeyword keywords
  | .typeName => typeName
  | .string => string
  | .comment => comment

end Node

namespace Node

/-- Keywords are found between two edges of words. -/
theorem ways_anyKeyword (keywords : List Text) (place : Place) :
    (anyKeyword keywords).ways place =
      if place.satisfies .wordEdge then
        ((choice (keywords.map literal)).ways place).filter (·.satisfies .wordEdge)
      else [] := by
  have hanchor (place : Place) : (anchor .wordEdge).ways place =
      if place.satisfies .wordEdge then [place] else [] := rfl
  have hlast (places : List Place) : places.flatMap (sequence [anchor .wordEdge]).ways =
      places.filter (·.satisfies .wordEdge) := by
    induction places with
    | nil => rfl
    | cons place places ih =>
      have hways : (sequence [anchor .wordEdge]).ways place =
          ((anchor .wordEdge).ways place).flatMap fun next => [next] := rfl
      rw [List.flatMap_cons, ih, hways, List.flatMap_singleton', hanchor, List.filter_cons]
      split <;> rfl
  have hways : (anyKeyword keywords).ways place =
      ((anchor .wordEdge).ways place).flatMap (fun middle =>
        ((choice (keywords.map literal)).ways middle).flatMap
          (sequence [anchor .wordEdge]).ways) ++ [] := rfl
  rw [hways, List.append_nil, hanchor]
  by_cases hedge : place.satisfies .wordEdge = true
  · rw [if_pos hedge, if_pos hedge, List.flatMap_singleton, hlast]
  · rw [if_neg hedge, if_neg hedge, List.flatMap_nil]

/-- Keywords themselves ask for no condition. -/
theorem leaves_literals (keywords : List Text) :
    (choice (keywords.map literal)).leaves (fun _ => true) (fun _ => false) = true := by
  simp [literal, leaves]

end Node

/-- Keywords without line feeds stay on a line. -/
theorem Node.leaves_anyKeyword {keywords : List Text} (h : ∀ keyword ∈ keywords, '\n' ∉ keyword) :
    (anyKeyword keywords).leaves (fun own => !own.has '\n') (· == .wordEdge) = true := by
  have hliteral : ∀ keyword ∈ keywords,
      (literal keyword).leaves (fun own => !own.has '\n') (· == .wordEdge) = true := by
    intro keyword hmem
    have hchar : ∀ c ∈ keyword,
        (char (.only c)).leaves (fun own => !own.has '\n') (· == .wordEdge) = true := by
      intro c hc
      have hne : '\n' ≠ c := fun heq => h keyword hmem (heq ▸ hc)
      simp [leaves, hne]
    simpa [literal, List.all_map] using hchar
  have hedge : (anchor .wordEdge).leaves (fun own => !own.has '\n') (· == .wordEdge) = true := rfl
  simpa [anyKeyword, hedge, List.all_map] using hliteral

theorem Pattern.read_eq_ok {text : Text} {pattern : Pattern}
    (h : (read text).toOption = some pattern) : read text = .ok pattern := by
  cases hread : read text with
  | error cause =>
    rw [hread] at h
    cases h
  | ok other =>
    rw [hread] at h
    rw [Option.some.inj h]

theorem Pattern.exists_of_isOk {text : Text} (h : (parse text).isOk = true) :
    ∃ pattern, parse text = .ok pattern := by
  cases hparse : parse text with
  | error cause =>
    rw [hparse] at h
    cases h
  | ok pattern => exact ⟨pattern, rfl⟩

/-- The patterns of the table are read as the trees of their kinds. -/
theorem Category.read_forKind? {colors : TokenColors} {keywords : List Text} {kind : TokenKind}
    {category : Category} (h : forKind? colors keywords kind = some category) :
    Pattern.read category.pattern = .ok ⟨Node.forKind keywords kind, []⟩ := by
  cases kind with
  | keyword =>
    obtain ⟨pattern, hpattern, rfl⟩ := Option.map_eq_some_iff.mp h
    exact Pattern.read_keywordPattern hpattern
  | character =>
    have hread : (Pattern.read characterPattern).toOption = some ⟨.character, []⟩ := by
      decide +kernel
    obtain rfl := Option.some.inj h
    exact Pattern.read_eq_ok hread
  | number =>
    have hread : (Pattern.read numberPattern).toOption = some ⟨.number, []⟩ := by
      decide +kernel
    obtain rfl := Option.some.inj h
    exact Pattern.read_eq_ok hread
  | typeName =>
    have hread : (Pattern.read typeNamePattern).toOption = some ⟨.typeName, []⟩ := by
      decide +kernel
    obtain rfl := Option.some.inj h
    exact Pattern.read_eq_ok hread
  | string =>
    have hread : (Pattern.read stringPattern).toOption = some ⟨.string, []⟩ := by
      decide +kernel
    obtain rfl := Option.some.inj h
    exact Pattern.read_eq_ok hread
  | comment =>
    have hread : (Pattern.read commentPattern).toOption = some ⟨.comment, []⟩ := by
      decide +kernel
    obtain rfl := Option.some.inj h
    exact Pattern.read_eq_ok hread

/-- Only for an empty list of keywords there is no category. -/
theorem Category.forKind?_eq_none {colors : TokenColors} {keywords : List Text} {kind : TokenKind}
    (h : forKind? colors keywords kind = none) : kind = .keyword ∧ keywords = [] := by
  cases kind with
  | keyword =>
    refine ⟨rfl, ?_⟩
    cases keywords with
    | nil => rfl
    | cons keyword keywords => cases h
  | character | number | typeName | string | comment => cases h

/-! ## The classifier of the table -/

namespace Classifier

/-- The categories that the classifier of the table looks for are read as the trees of kinds, and
there is room for them. -/
theorem parse_of_mem_table {colors : TokenColors} {keywords : List Text} {baseStyle : Style} :
    ∀ category ∈ (ofCategories (Category.table colors keywords) baseStyle).categories,
      ∃ kind, Category.forKind? colors keywords kind = some category ∧
        Pattern.parse category.pattern = .ok ⟨Node.forKind keywords kind, []⟩ := by
  intro category hmem
  obtain ⟨kind, -, hkind⟩ := List.mem_filterMap.mp
    ((sublist_categories (Category.table colors keywords) baseStyle).subset hmem)
  have hread : ∀ other ∈ Category.table colors keywords,
      ∃ own, Pattern.read other.pattern = .ok own := by
    intro other hother
    obtain ⟨kind, -, hkind⟩ := List.mem_filterMap.mp hother
    exact ⟨_, Category.read_forKind? hkind⟩
  obtain ⟨own, hown⟩ := exists_parse_of_mem baseStyle hread category hmem
  have hsame := (Pattern.parse_eq_ok_iff.mp hown).1.symm.trans (Category.read_forKind? hkind)
  obtain rfl := Except.ok.inj hsame
  exact ⟨kind, hkind, hown⟩

/-- The categories that the classifier of the table looks for were accepted in order. -/
theorem accepted_table (colors : TokenColors) (keywords : List Text) (baseStyle : Style) :
    Engine.Accepted (ofCategories (Category.table colors keywords) baseStyle).categories
      (ofCategories (Category.table colors keywords) baseStyle).pattern := by
  refine accepted_ofCategories _ baseStyle fun category hmem => ?_
  obtain ⟨kind, -, hparse⟩ := parse_of_mem_table category hmem
  exact ⟨_, hparse⟩

end Classifier

end ScratchEditor

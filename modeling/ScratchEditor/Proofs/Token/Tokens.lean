import ScratchEditor.Proofs.Token.Accepted
import ScratchEditor.Proofs.Token.Leftmost
import ScratchEditor.Proofs.Token.Lexemes

/-!
# The tokens of a region

The spans that the categories of the table give to a region are the tokens of the lexer.

Main definitions:

- `TokenColors.style`: the style that a kind of token is drawn in.

Main results:

- `Lexer.scan_tokens`: the lexer is a scan.
- `Classifier.classify_table`: the spans of the lines that an extent touches.
-/

namespace ScratchEditor

namespace Lexer

variable {keywords : List Text} {before : Option Char} {text : Text} {kind : TokenKind}
  {length : Nat}

theorem character?_pos (h : character? text = some length) : 0 < length := by
  fun_cases character? text with
  | case1 rest inside hclosed =>
    rw [character?, if_pos hclosed] at h
    obtain rfl := Option.some.inj h
    omega
  | case2 rest inside hclosed =>
    rw [character?, if_neg hclosed] at h
    cases h
  | case3 => simp_all [character?]

theorem number?_pos (h : number? before text = some length) : 0 < length := by
  unfold number? at h
  grind

theorem typeName?_pos (h : typeName? before text = some length) : 0 < length := by
  unfold typeName? at h
  grind

theorem string?_pos (h : string? text = some length) : 0 < length := by
  fun_cases string? text with
  | case1 rest =>
    obtain ⟨n, -, rfl⟩ := Option.map_eq_some_iff.mp h
    exact Nat.succ_pos n
  | case2 => simp_all [string?]

theorem comment?_pos (h : comment? text = some length) : 0 < length := by
  unfold comment? at h
  grind

theorem keyword?_pos (hkeywords : ∀ keyword ∈ keywords, keyword ≠ [])
    (h : keyword? keywords before text = some length) : 0 < length := by
  obtain ⟨keyword, hfind, rfl⟩ := Option.map_eq_some_iff.mp h
  exact List.length_pos_iff.mpr (hkeywords keyword (List.mem_of_find?_eq_some hfind))

/-- Every token has some text, if every keyword has. -/
theorem length?_pos (hkeywords : ∀ keyword ∈ keywords, keyword ≠ [])
    (h : length? keywords before text kind = some length) : 0 < length := by
  cases kind with
  | character => exact character?_pos h
  | number => exact number?_pos h
  | keyword => exact keyword?_pos hkeywords h
  | typeName => exact typeName?_pos h
  | string => exact string?_pos h
  | comment => exact comment?_pos h

/-- At the end of a text no token begins. -/
theorem length?_nil (hkeywords : ∀ keyword ∈ keywords, keyword ≠ []) (before : Option Char)
    (kind : TokenKind) : length? keywords before [] kind = none := by
  cases kind with
  | character => rfl
  | number => simp only [length?, number?, Text.runLength_nil, decide_true, Bool.or_true, if_true]
  | keyword =>
    simp only [length?, keyword?, Option.map_eq_none_iff, List.find?_eq_none]
    intro keyword hmem
    simp [hkeywords keyword hmem]
  | typeName => rfl
  | string => rfl
  | comment => rfl

theorem first?_nil (hkeywords : ∀ keyword ∈ keywords, keyword ≠ []) (before : Option Char) :
    first? keywords before [] = none := by
  simp [first?, length?_nil hkeywords]

theorem first?_pos (hkeywords : ∀ keyword ∈ keywords, keyword ≠ [])
    (h : first? keywords before text = some (kind, length)) : 0 < length := by
  obtain ⟨own, -, hown⟩ := List.exists_of_findSome?_eq_some h
  obtain ⟨n, hn, heq⟩ := Option.map_eq_some_iff.mp hown
  obtain ⟨rfl, rfl⟩ := Prod.mk.inj heq
  exact length?_pos hkeywords hn

/-- The token that begins at an offset of a text. -/
def headAt (keywords : List Text) (text : Text) (offset : Nat) : Option (TokenKind × Extent) :=
  (first? keywords (text.take offset).getLast? (text.drop offset)).map fun token =>
    (token.1, ⟨offset, token.2⟩)

/-- The character at an offset, and what follows it. -/
theorem lt_of_drop_eq_cons {whole later : Text} {offset : Nat} {c : Char}
    (h : whole.drop offset = c :: later) :
    offset < whole.length ∧ (whole.take (offset + 1)).getLast? = some c ∧
      whole.drop (offset + 1) = later := by
  have hlt : offset < whole.length := by
    have hlength := congrArg List.length h
    rw [List.length_drop, List.length_cons] at hlength
    omega
  rw [List.drop_eq_getElem_cons hlt] at h
  obtain ⟨rfl, rfl⟩ := List.cons.inj h
  refine ⟨hlt, ?_, rfl⟩
  rw [List.take_add_one, List.getElem?_eq_getElem hlt, Option.toList_some, List.getLast?_concat]

/-- From an offset on, behind what belongs to a token before, the lexer is a scan. -/
theorem scan_tokensFrom (hkeywords : ∀ keyword ∈ keywords, keyword ≠ []) {whole : Text}
    {offset rest : Nat} (hbefore : (whole.take offset).getLast? = before)
    (htext : whole.drop offset = text) (hle : offset ≤ whole.length) :
    Scan (headAt keywords whole) whole.length (offset + rest)
      (tokensFrom keywords offset rest before text) := by
  induction text generalizing offset rest before with
  | nil =>
    have hend : whole.length ≤ offset := List.drop_eq_nil_iff.mp htext
    rw [tokensFrom]
    cases rest with
    | zero =>
      have hnone : headAt keywords whole offset = none := by
        rw [headAt, htext, first?_nil hkeywords]
        rfl
      exact Scan.skip hle hnone (Scan.stop (by omega))
    | succ rest => exact Scan.stop (by omega)
  | cons c later ih =>
    obtain ⟨hlt, hbefore', htext'⟩ := lt_of_drop_eq_cons htext
    have hnext (rest : Nat) := @ih (some c) (offset + 1) rest hbefore' htext' hlt
    cases rest with
    | succ rest =>
      rw [tokensFrom, Nat.add_comm rest 1, ← Nat.add_assoc]
      exact hnext rest
    | zero =>
      have hhead : headAt keywords whole offset =
          (first? keywords before (c :: later)).map fun token => (token.1, ⟨offset, token.2⟩) := by
        rw [headAt, hbefore, htext]
      rw [tokensFrom]
      cases hfirst : first? keywords before (c :: later) with
      | none =>
        rw [hfirst] at hhead
        exact Scan.skip hle hhead (hnext 0)
      | some token =>
        obtain ⟨kind, length⟩ := token
        have hpos := first?_pos hkeywords hfirst
        have hstop : offset + 1 + (length - 1) = offset + length := by omega
        have hlater := hnext (length - 1)
        rw [hstop] at hlater
        rw [hfirst] at hhead
        exact Scan.take hle hhead hlater

/-- The tokens of a text are those of a scan. -/
theorem scan_tokens (hkeywords : ∀ keyword ∈ keywords, keyword ≠ []) (text : Text) :
    Scan (headAt keywords text) text.length 0 (tokens keywords text) :=
  @scan_tokensFrom _ none text hkeywords text 0 0 rfl rfl (Nat.zero_le _)

end Lexer

/-- The style that a kind of token is drawn in. -/
def TokenColors.style (colors : TokenColors) : TokenKind → Style
  | .character => .regular colors.character
  | .number => .regular colors.number
  | .keyword => .heavy colors.keyword
  | .typeName => .heavy colors.typeName
  | .string => .regular colors.string
  | .comment => .regular colors.comment

theorem Category.forKind?_eq_some {colors : TokenColors} {keywords : List Text} {kind : TokenKind}
    {category : Category} (h : forKind? colors keywords kind = some category) :
    category.kind = kind ∧ category.style = colors.style kind := by
  cases kind with
  | keyword =>
    obtain ⟨pattern, -, rfl⟩ := Option.map_eq_some_iff.mp h
    exact ⟨rfl, rfl⟩
  | character | number | typeName | string | comment =>
    obtain rfl := Option.some.inj h
    exact ⟨rfl, rfl⟩

/-- What the tree of a kind matches at an offset. -/
theorem Category.matchAt?_forKind {keywords : List Text} {kind : TokenKind} {category : Category}
    (h : Pattern.parse category.pattern = .ok ⟨Node.forKind keywords kind, []⟩) (text : Text)
    (offset : Nat) :
    category.matchAt? Pattern text offset =
      (Lexer.length? keywords (text.take offset).getLast? (text.drop offset) kind).map fun length =>
        ⟨offset, length⟩ := by
  have hrun := Node.run_forKind keywords kind (Place.at_ text offset)
  have hforget : (Place.at_ text offset).forget = Place.at_ text offset := rfl
  have hmatch : Engine.matchAt? (⟨Node.forKind keywords kind, []⟩ : Pattern)
      (Place.at_ text offset) = (Node.forKind keywords kind).matchAt? (Place.at_ text offset) := rfl
  rw [Engine.matchAt?_category h, hmatch]
  simp only [Node.matchAt?, hforget, hrun, Option.map_map]
  congr 1
  funext length
  have hextent : Extent.between offset (offset + length) = ⟨offset, length⟩ := by
    simp [Extent.between]
  exact hextent

/-- The first category of the table that matches at an offset is that of the token there. -/
theorem Category.firstOf_table {colors : TokenColors} {keywords : List Text}
    (hparse : ∀ kind category, forKind? colors keywords kind = some category →
      Pattern.parse category.pattern = .ok ⟨Node.forKind keywords kind, []⟩)
    (text : Text) (offset : Nat) :
    (firstOf Pattern (table colors keywords) text offset).map
        (Prod.map (fun category => (category.kind, category.style)) id) =
      (Lexer.headAt keywords text offset).map
        (Prod.map (fun kind => (kind, colors.style kind)) id) := by
  unfold firstOf table Lexer.headAt Lexer.first?
  rw [← List.head?_filterMap, List.filterMap_filterMap, List.head?_filterMap,
    List.map_findSome?, List.map_findSome?, List.map_findSome?]
  congr 1
  funext kind
  cases hkind : forKind? colors keywords kind with
  | none =>
    obtain ⟨rfl, rfl⟩ := forKind?_eq_none hkind
    rfl
  | some category =>
    obtain ⟨hname, hstyle⟩ := forKind?_eq_some hkind
    simp only [Function.comp_apply, hkind, Option.bind_some,
      matchAt?_forKind (hparse kind category hkind), Option.map_map]
    congr 1
    funext length
    simp [hname, hstyle]

namespace Classifier

/-- The spans over a region are the tokens of the lexer. -/
theorem overlays_table (colors : TokenColors) {keywords : List Text}
    (hkeywords : ∀ keyword ∈ keywords, keyword ≠ [])
    (hcompiles : ∃ pattern,
      Pattern.parse (combinedSource (Category.table colors keywords)) = .ok pattern)
    (baseStyle : Style) (region : Text) :
    (ofCategories (Category.table colors keywords) baseStyle).overlays region =
      (Lexer.tokens keywords region).map fun token =>
        ⟨token.2, colors.style token.1, some token.1⟩ := by
  obtain ⟨pattern, hpattern⟩ := hcompiles
  have hcategories := categories_of_plain baseStyle
    (fun category (hmem : category ∈ Category.table colors keywords) =>
      Category.plain_of_mem_table hmem) hpattern
  have hparse : ∀ kind category, Category.forKind? colors keywords kind = some category →
      Pattern.parse category.pattern = .ok ⟨Node.forKind keywords kind, []⟩ := by
    intro kind category hkind
    have hmem : category ∈ Category.table colors keywords :=
      List.mem_filterMap.mpr ⟨kind, by cases kind <;> decide, hkind⟩
    rw [← hcategories] at hmem
    obtain ⟨own, hown, hread⟩ := parse_of_mem_table category hmem
    rw [← (Category.forKind?_eq_some hkind).1, (Category.forKind?_eq_some hown).1]
    exact hread
  obtain ⟨tokens, hscan, hoverlays⟩ := overlays_eq (accepted_table colors keywords baseStyle) region
  rw [hcategories] at hscan
  have hheads : ∀ k ≤ region.length,
      Category.headOf Pattern (Category.table colors keywords) region k =
        Category.firstOf Pattern (Category.table colors keywords) region k := by
    intro k _
    refine Category.headOf_eq_firstOf fun category hmem own hown => ?_
    obtain ⟨kind, -, hkind⟩ := List.mem_filterMap.mp hmem
    rw [Category.matchAt?_forKind (hparse kind category hkind)] at hown
    obtain ⟨length, hlength, rfl⟩ := Option.map_eq_some_iff.mp hown
    have hpos := Lexer.length?_pos hkeywords hlength
    simp [Extent.isEmpty, Nat.ne_of_gt hpos]
  -- Both scans name the same kinds with the same styles.
  have hkinds : Scan
      (fun k => (Lexer.headAt keywords region k).map
        (Prod.map (fun kind => (kind, colors.style kind)) id)) region.length 0
      (tokens.map (Prod.map (fun category => (category.kind, category.style)) id)) := by
    refine ((hscan.congr hheads).map
      (Prod.map (fun category : Category => (category.kind, category.style)) id) fun _ => rfl).congr
        fun k _ => ?_
    exact Category.firstOf_table hparse region k
  have hlexer := (Lexer.scan_tokens hkeywords region).map
    (Prod.map (fun kind => (kind, colors.style kind)) id) fun _ => rfl
  have hsame := hkinds.unique hlexer
  let span (token : (TokenKind × Style) × Extent) : Span := ⟨token.2, token.1.2, some token.1.1⟩
  calc (ofCategories (Category.table colors keywords) baseStyle).overlays region
      = (tokens.map (Prod.map (fun category => (category.kind, category.style)) id)).map span := by
        rw [hoverlays, List.map_map]
        exact List.map_congr_left fun _ _ => rfl
    _ = ((Lexer.tokens keywords region).map
          (Prod.map (fun kind => (kind, colors.style kind)) id)).map span := by rw [hsame]
    _ = (Lexer.tokens keywords region).map fun token =>
          ⟨token.2, colors.style token.1, some token.1⟩ := by
        rw [List.map_map]
        exact List.map_congr_left fun _ _ => rfl

end Classifier

end ScratchEditor

import ScratchEditor.Proofs.Token.Heads
import ScratchEditor.Proofs.Token.Parts

/-!
# The spans of a part

Lines that are classified by themselves get the spans that they have in the whole text,
unless a span of the whole text crosses the ends of these lines.

Main definitions:

- `Span.Crosses`: a span stands on both sides of an offset.
- `colorAt`: the style that spans give to an offset, the last one on top.

Main results:

- `Part.exists_overlays`: the spans of a text and those of a part share the spans on its lines.
- `Part.colorAt_overlays`: both give the same styles to its lines.
-/

namespace ScratchEditor

/-! ## Tokens in a part -/

namespace Category

variable {categories : List Category} {text : Text} {offset : Nat}

/-- What the tree of a category matches at an offset. -/
theorem matchAt?_eq_ways {category : Category} {pattern : Pattern}
    (h : Pattern.parse category.pattern = .ok pattern) (text : Text) (offset : Nat) :
    category.matchAt? Pattern text offset =
      (pattern.node.ways (Place.at_ text offset)).head?.map fun reached =>
        Extent.between offset reached.offset := by
  have hforget : (Place.at_ text offset).forget = Place.at_ text offset := rfl
  have hmatch : Engine.matchAt? pattern (Place.at_ text offset) =
      pattern.node.matchAt? (Place.at_ text offset) := rfl
  rw [Engine.matchAt?_category h, hmatch, Node.matchAt?_eq, Option.map_map, hforget]
  rfl

/-- A match begins where it is looked for. -/
theorem start_of_matchAt? {category : Category} {extent : Extent}
    (h : category.matchAt? Pattern text offset = some extent) : extent.start = offset := by
  unfold matchAt? at h
  split at h
  · rename_i own hown
    rw [← Engine.matchAt?_category hown, matchAt?_eq_ways hown] at h
    obtain ⟨reached, -, rfl⟩ := Option.map_eq_some_iff.mp h
    rfl
  · cases h

/-- The token at an offset begins there and has some text. -/
theorem moves_of_headOf {token : Category × Extent}
    (h : headOf Pattern categories text offset = some token) :
    token.2.start = offset ∧ offset < token.2.stop := by
  obtain ⟨hfirst, hsome⟩ := Option.filter_eq_some_iff.mp h
  obtain ⟨-, -, -, -, hmatch⟩ := firstOf_eq_some_iff.mp hfirst
  have hstart := start_of_matchAt? hmatch
  have hlength : token.2.length ≠ 0 := by
    simpa [Extent.isEmpty] using hsome
  refine ⟨hstart, ?_⟩
  unfold Extent.stop
  omega

end Category

namespace Part

variable {text before lines rest after : Text} {k : Nat} {keywords : List Text}
  {fits : Nat → Prop}

/-- A category of the table matches the same on the lines. -/
theorem matchAt?_eq (h : Part text before lines rest after) (hk : k < lines.length)
    (hends : KeywordEnds text before lines rest keywords fits) {category : Category}
    (hcategory : ∃ kind, Pattern.parse category.pattern = .ok ⟨Node.forKind keywords kind, []⟩) :
    (category.matchAt? Pattern text (before.length + k) = none →
      category.matchAt? Pattern (lines ++ rest) k = none) ∧
    ∀ extent ∈ category.matchAt? Pattern text (before.length + k), fits extent.stop →
      ∃ own ∈ category.matchAt? Pattern (lines ++ rest) k, extent = own.shift before.length := by
  obtain ⟨kind, hparse⟩ := hcategory
  obtain ⟨hnone, hsome⟩ := h.agreesAt_forKind hk hends kind
  rw [Category.matchAt?_eq_ways hparse, Category.matchAt?_eq_ways hparse]
  constructor
  · intro hwhole
    rw [Option.map_eq_none_iff, List.head?_eq_none_iff] at hwhole ⊢
    exact hnone hwhole
  · intro extent hextent hfits
    obtain ⟨next, hnext, rfl⟩ := Option.map_eq_some_iff.mp hextent
    have hforward : before.length + k ≤ next.offset :=
      ((Node.forKind keywords kind).forward_of_mem_ways _ next (List.mem_of_head? hnext)).offset_le
    rw [Extent.stop_between hforward] at hfits
    obtain ⟨next', hnext', hoffset⟩ := hsome next hnext hfits
    refine ⟨_, Option.map_eq_some_iff.mpr ⟨next', hnext', rfl⟩, ?_⟩
    unfold Extent.between Extent.shift
    rw [Extent.mk.injEq]
    dsimp only
    omega

variable {categories : List Category} (hcategories : ∀ category ∈ categories,
  ∃ kind, Pattern.parse category.pattern = .ok ⟨Node.forKind keywords kind, []⟩)

include hcategories

/-- The first category that matches is the same, whether or not it matches some text. -/
theorem firstOf_eq (h : Part text before lines rest after) (hk : k < lines.length)
    (hends : KeywordEnds text before lines rest keywords fits) :
    (Category.firstOf Pattern categories text (before.length + k) = none →
      Category.firstOf Pattern categories (lines ++ rest) k = none) ∧
    ∀ token, Category.firstOf Pattern categories text (before.length + k) = some token →
      fits token.2.stop →
        ∃ own, Category.firstOf Pattern categories (lines ++ rest) k = some own ∧
          token = (own.1, own.2.shift before.length) := by
  have hsame (category : Category) (hmem : category ∈ categories) :=
    h.matchAt?_eq hk hends (hcategories category hmem)
  constructor
  · intro hwhole
    rw [Category.firstOf_eq_none_iff] at hwhole ⊢
    exact fun category hmem => (hsame category hmem).1 (hwhole category hmem)
  · intro token hwhole hfits
    obtain ⟨earlier, later, hsplit, hearlier, hmatch⟩ := Category.firstOf_eq_some_iff.mp hwhole
    obtain ⟨own, hown, hextent⟩ := (hsame token.1 (by simp [hsplit])).2 token.2 hmatch hfits
    refine ⟨(token.1, own), ?_, Prod.ext rfl hextent⟩
    refine Category.firstOf_eq_some_iff.mpr ⟨earlier, later, hsplit, ?_, hown⟩
    intro other hother
    exact (hsame other (by simp [hsplit, hother])).1 (hearlier other hother)

/-- The tokens on the lines begin in the part where they begin in the text. -/
theorem headOf_eq (h : Part text before lines rest after) (hk : k < lines.length)
    (hends : KeywordEnds text before lines rest keywords fits) :
    (Category.headOf Pattern categories text (before.length + k) = none →
      Category.headOf Pattern categories (lines ++ rest) k = none) ∧
    ∀ token, Category.headOf Pattern categories text (before.length + k) = some token →
      fits token.2.stop →
        ∃ own, Category.headOf Pattern categories (lines ++ rest) k = some own ∧
          token = (own.1, own.2.shift before.length) := by
  obtain ⟨hnone, hsome⟩ := firstOf_eq hcategories h hk hends
  unfold Category.headOf
  constructor
  · intro hwhole
    cases hfirst : Category.firstOf Pattern categories text (before.length + k) with
    | none => rw [hnone hfirst, Option.filter_none]
    | some token =>
      -- An empty match on the lines ends on them.
      have hempty : token.2.isEmpty = true := by
        rw [hfirst] at hwhole
        simpa [Option.filter] using hwhole
      have hstop : fits token.2.stop := by
        obtain ⟨-, -, -, -, hmatch⟩ := Category.firstOf_eq_some_iff.mp hfirst
        have hstart := Category.start_of_matchAt? hmatch
        have hlength : token.2.length = 0 := by
          simpa [Extent.isEmpty] using hempty
        apply hends.inside
        unfold Extent.stop
        omega
      obtain ⟨own, hown, rfl⟩ := hsome token hfirst hstop
      rw [hown]
      exact Option.filter_some_neg (by simpa [Extent.isEmpty, Extent.shift] using hempty)
  · intro token hwhole hfits
    obtain ⟨hfirst, hnonempty⟩ := Option.filter_eq_some_iff.mp hwhole
    obtain ⟨own, hown, rfl⟩ := hsome token hfirst hfits
    exact ⟨own, Option.filter_eq_some_iff.mpr ⟨hown, hnonempty⟩, rfl⟩

end Part

/-! ## Spans in a part -/

theorem Extent.holds_iff {extent : Extent} {offset : Nat} :
    extent.holds offset = true ↔ extent.start ≤ offset ∧ offset < extent.stop := by
  simp [Extent.holds]

/-- A span stands on both sides of an offset. -/
def Span.Crosses (span : Span) (offset : Nat) : Prop :=
  span.extent.start < offset ∧ offset < span.extent.stop

/-- The style that spans give to an offset, where the last one lies on top. -/
def colorAt (spans : List Span) (offset : Nat) : Option Style :=
  (spans.reverse.find? fun span => span.extent.holds offset).map Span.style

theorem colorAt_append (under above : List Span) (offset : Nat) :
    colorAt (under ++ above) offset = (colorAt above offset).or (colorAt under offset) := by
  unfold colorAt
  rw [List.reverse_append, List.find?_append, Option.map_or]

/-- Spans that do not hold an offset give it no style. -/
theorem colorAt_eq_none {spans : List Span} {offset : Nat}
    (h : ∀ span ∈ spans, offset < span.extent.start ∨ span.extent.stop ≤ offset) :
    colorAt spans offset = none := by
  unfold colorAt
  rw [Option.map_eq_none_iff, List.find?_eq_none]
  intro span hmem
  have hoff := h span (List.mem_reverse.mp hmem)
  rw [Extent.holds_iff]
  omega

/-- Moving spans moves their styles. -/
theorem colorAt_shift (spans : List Span) (distance offset : Nat) :
    colorAt (spans.map (Classifier.shiftSpan distance)) (distance + offset) =
      colorAt spans offset := by
  have hholds (span : Span) :
      (Classifier.shiftSpan distance span).extent.holds (distance + offset) =
        span.extent.holds offset := by
    rw [Bool.eq_iff_iff, Extent.holds_iff, Extent.holds_iff, Classifier.start_shiftSpan,
      Classifier.stop_shiftSpan]
    omega
  unfold colorAt
  rw [← List.map_reverse, List.find?_map, Option.map_map]
  simp only [Function.comp_def, hholds]
  rfl

namespace Part

variable {text before lines rest after : Text} {settings : Settings} {fits : Nat → Prop}

/-- The spans of a text and those of a part share the spans on the lines of the part. -/
theorem exists_overlays (h : Part text before lines rest after)
    (hends : KeywordEnds text before lines rest settings.keywords fits)
    (hcross : ∀ span ∈ (Classifier.ofSettings settings).overlays text,
      ¬ span.Crosses before.length ∧
        (span.extent.start < before.length + lines.length → fits span.extent.stop)) :
    ∃ earlier inside later behind,
      (Classifier.ofSettings settings).overlays text =
        earlier ++ (inside.map (Classifier.shiftSpan before.length) ++ later) ∧
      (Classifier.ofSettings settings).overlays (lines ++ rest) = inside ++ behind ∧
      (∀ span ∈ earlier, span.extent.stop ≤ before.length) ∧
      (∀ span ∈ later, before.length + lines.length ≤ span.extent.start) ∧
      ∀ span ∈ behind, lines.length ≤ span.extent.start := by
  have haccepted : Engine.Accepted (Classifier.ofSettings settings).categories
      (Classifier.ofSettings settings).pattern := Classifier.accepted_table _ _ _
  have hcategories : ∀ category ∈ (Classifier.ofSettings settings).categories,
      ∃ kind, Pattern.parse category.pattern = .ok ⟨Node.forKind settings.keywords kind, []⟩ := by
    intro category hmem
    obtain ⟨kind, -, hparse⟩ := Classifier.parse_of_mem_table category hmem
    exact ⟨kind, hparse⟩
  obtain ⟨tokens, hscan, hoverlays⟩ := Classifier.overlays_eq haccepted text
  obtain ⟨tokens', hscan', hoverlays'⟩ := Classifier.overlays_eq haccepted (lines ++ rest)
  have hlength := h.length_text
  have hlimit : lines.length ≤ (lines ++ rest).length := by
    rw [List.length_append]
    exact Nat.le_add_right _ _
  have hcrossToken : ∀ token ∈ tokens, (token.2.start < before.length →
      token.2.stop ≤ before.length) ∧ (token.2.start < before.length + lines.length →
        fits token.2.stop) := by
    intro token hmem
    obtain ⟨hnot, hfits⟩ := hcross (Classifier.spanOf token)
      (by rw [hoverlays]; exact List.mem_map_of_mem hmem)
    unfold Span.Crosses Classifier.spanOf at hnot
    dsimp only at hnot
    exact ⟨by omega, hfits⟩
  obtain ⟨earlier, there, rfl, hearlier, hthere⟩ := hscan.split
    (fun _ _ => Category.moves_of_headOf) (Nat.zero_le before.length) (by omega)
    fun token hmem => (hcrossToken token hmem).1
  obtain ⟨inside, later, rfl, hlater, hinside⟩ := hthere.follow
    (fun _ _ => Category.moves_of_headOf) hends.le (by omega) hlimit
    (fun k hk => (headOf_eq hcategories h hk hends).1)
    (fun k hk => (headOf_eq hcategories h hk hends).2)
    (Nat.le_refl before.length) (Nat.le_add_right _ _)
    fun token hmem => (hcrossToken token (List.mem_append_right _ hmem)).2
  obtain ⟨behind, hbehind⟩ := Scan.exists_of_moves
    (fun _ _ hhead => (Category.moves_of_headOf hhead).2) lines.length
  have hsame : tokens' = inside ++ behind := by
    have hpart := hinside behind hbehind
    rw [Nat.sub_self] at hpart
    exact hscan'.unique hpart
  refine ⟨earlier.map Classifier.spanOf, inside.map Classifier.spanOf,
    later.map Classifier.spanOf, behind.map Classifier.spanOf, ?_, ?_, ?_, ?_, ?_⟩
  · rw [hoverlays, List.map_append, List.map_append, List.map_map, List.map_map]
    rfl
  · rw [hoverlays', hsame, List.map_append]
  · intro span hspan
    obtain ⟨token, hmem, rfl⟩ := List.mem_map.mp hspan
    exact hearlier token hmem
  · intro span hspan
    obtain ⟨token, hmem, rfl⟩ := List.mem_map.mp hspan
    exact hlater.start_le (fun _ _ => Category.moves_of_headOf) token hmem
  · intro span hspan
    obtain ⟨token, hmem, rfl⟩ := List.mem_map.mp hspan
    exact hbehind.start_le (fun _ _ => Category.moves_of_headOf) token hmem

/-- On the lines of a part its spans give the styles that the spans of the text give. -/
theorem colorAt_overlays (h : Part text before lines rest after)
    (hends : KeywordEnds text before lines rest settings.keywords fits)
    (hcross : ∀ span ∈ (Classifier.ofSettings settings).overlays text,
      ¬ span.Crosses before.length ∧
        (span.extent.start < before.length + lines.length → fits span.extent.stop))
    {i : Nat} (hi : i < lines.length) :
    colorAt ((Classifier.ofSettings settings).overlays (lines ++ rest)) i =
      colorAt ((Classifier.ofSettings settings).overlays text) (before.length + i) := by
  obtain ⟨earlier, inside, later, behind, hoverlays, hoverlays', hearlier, hlater, hbehind⟩ :=
    h.exists_overlays hends hcross
  have hnoneEarlier : colorAt earlier (before.length + i) = none := by
    apply colorAt_eq_none
    intro span hmem
    have hstop := hearlier span hmem
    omega
  have hnoneLater : colorAt later (before.length + i) = none := by
    apply colorAt_eq_none
    intro span hmem
    have hstart := hlater span hmem
    omega
  have hnoneBehind : colorAt behind i = none := by
    apply colorAt_eq_none
    intro span hmem
    have hstart := hbehind span hmem
    omega
  rw [hoverlays, hoverlays', colorAt_append, colorAt_append, colorAt_append, hnoneEarlier,
    hnoneLater, hnoneBehind, colorAt_shift, Option.none_or, Option.or_none]

end Part

end ScratchEditor

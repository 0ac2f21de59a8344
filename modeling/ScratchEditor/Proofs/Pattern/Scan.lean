import ScratchEditor.Proofs.Pattern.Reach

/-!
# Scanning a text

A scan asks at every offset which token begins there.  Without one it moves on by a
character, and behind a token it goes on where the token ends.  Looking for all matches
of a pattern is such a scan, if empty matches make no token.

Main definitions:

- `Scan`: the tokens of a scan from an offset on.
- `Found.Sound`: what looking for a match at a place has to keep to.

Main results:

- `Scan.unique`: a scan finds one list of tokens.
- `Found.scan_all`: the matches that make tokens are those of a scan.
-/

namespace ScratchEditor

/-- The tokens of a scan from an offset on, where `head` tells which one begins at an offset. -/
inductive Scan {α : Type} (head : Nat → Option (α × Extent)) (limit : Nat) :
    Nat → List (α × Extent) → Prop
  /-- Behind the text no token begins. -/
  | stop {offset : Nat} (hlimit : limit < offset) : Scan head limit offset []
  /-- Where no token begins, the scan moves on by a character. -/
  | skip {offset : Nat} {tokens : List (α × Extent)} (hlimit : offset ≤ limit)
      (hhead : head offset = none) (hnext : Scan head limit (offset + 1) tokens) :
      Scan head limit offset tokens
  /-- Behind a token the scan goes on. -/
  | take {offset : Nat} {token : α × Extent} {tokens : List (α × Extent)}
      (hlimit : offset ≤ limit) (hhead : head offset = some token)
      (hnext : Scan head limit token.2.stop tokens) : Scan head limit offset (token :: tokens)

namespace Scan

variable {α : Type} {head : Nat → Option (α × Extent)} {limit : Nat}

/-- A scan finds one list of tokens. -/
theorem unique {offset : Nat} {tokens tokens' : List (α × Extent)}
    (h : Scan head limit offset tokens) (h' : Scan head limit offset tokens') :
    tokens = tokens' := by
  induction h generalizing tokens' with
  | stop hlimit =>
    cases h' with
    | stop => rfl
    | skip hle => exact absurd hle (Nat.not_le.mpr hlimit)
    | take hle => exact absurd hle (Nat.not_le.mpr hlimit)
  | skip hlimit hhead hnext ih =>
    cases h' with
    | stop hlt => exact absurd hlimit (Nat.not_le.mpr hlt)
    | skip hle hnone hrest => exact ih hrest
    | take hle hsome hrest =>
      rw [hhead] at hsome
      cases hsome
  | take hlimit hhead hnext ih =>
    cases h' with
    | stop hlt => exact absurd hlimit (Nat.not_le.mpr hlt)
    | skip hle hnone hrest =>
      rw [hhead] at hnone
      cases hnone
    | take hle hsome hrest =>
      rw [hhead] at hsome
      obtain rfl := Option.some.inj hsome
      rw [ih hrest]

/-- Scans that agree on every offset of the text agree. -/
theorem congr {head' : Nat → Option (α × Extent)} (hheads : ∀ k ≤ limit, head k = head' k)
    {offset : Nat} {tokens : List (α × Extent)} (h : Scan head limit offset tokens) :
    Scan head' limit offset tokens := by
  induction h with
  | stop hlimit => exact stop hlimit
  | skip hlimit hhead hnext ih =>
    rw [hheads _ hlimit] at hhead
    exact skip hlimit hhead ih
  | take hlimit hhead hnext ih =>
    rw [hheads _ hlimit] at hhead
    exact take hlimit hhead ih

/-- A scan with something else made of every token, which ends where the token does. -/
theorem map {β : Type} (f : α × Extent → β × Extent)
    (hstop : ∀ token, (f token).2.stop = token.2.stop) {offset : Nat}
    {tokens : List (α × Extent)} (h : Scan head limit offset tokens) :
    Scan (fun k => (head k).map f) limit offset (tokens.map f) := by
  induction h with
  | stop hlimit => exact stop hlimit
  | skip hlimit hhead hnext ih => exact skip hlimit (by rw [hhead]; rfl) ih
  | take hlimit hhead hnext ih =>
    refine take hlimit (by rw [hhead]; rfl) ?_
    rw [hstop]
    exact ih

/-- A scan passes over a stretch in which no token begins. -/
theorem pass {offset middle : Nat} (hle : offset ≤ middle) (hlimit : middle ≤ limit + 1)
    (hnone : ∀ k, offset ≤ k → k < middle → head k = none) {tokens : List (α × Extent)}
    (h : Scan head limit middle tokens) : Scan head limit offset tokens := by
  induction hle using Nat.decreasingInduction with
  | self => exact h
  | of_succ k hlt ih =>
    have hrest := ih fun other hother => hnone other (Nat.le_of_succ_le hother)
    exact skip (by omega) (hnone k (Nat.le_refl k) hlt) hrest

/-- A scan behind a distance finds the tokens that are found without it, that much further on. -/
theorem shift {head' : Nat → Option (α × Extent)} {distance : Nat}
    (hheads : ∀ k ≤ limit, head' (distance + k) =
      (head k).map fun token => (token.1, token.2.shift distance))
    {offset : Nat} {tokens : List (α × Extent)} (h : Scan head limit offset tokens) :
    Scan head' (distance + limit) (distance + offset)
      (tokens.map fun token => (token.1, token.2.shift distance)) := by
  induction h with
  | stop hlimit => exact stop (Nat.add_lt_add_left hlimit distance)
  | skip hlimit hhead hnext ih =>
    refine skip (Nat.add_le_add_left hlimit distance) ?_ ih
    rw [hheads _ hlimit, hhead, Option.map_none]
  | take hlimit hhead hnext ih =>
    refine take (Nat.add_le_add_left hlimit distance) ?_ ?_
    · rw [hheads _ hlimit, hhead, Option.map_some]
    · rw [Extent.stop_shift, Nat.add_comm _ distance]
      exact ih

/-- Where no token begins, a scan finds none. -/
theorem empty (hnone : ∀ k ≤ limit, head k = none) (offset : Nat) : Scan head limit offset [] := by
  by_cases hle : offset ≤ limit
  · refine pass (Nat.le_succ_of_le hle) (Nat.le_refl _) ?_ (stop (Nat.lt_succ_self limit))
    exact fun k _ hlt => hnone k (Nat.le_of_lt_succ hlt)
  · exact stop (Nat.lt_of_not_le hle)

/-- Where every token begins where it is found and moves on, a scan comes to an end. -/
theorem exists_of_moves (hmoves : ∀ k token, head k = some token → k < token.2.stop)
    (offset : Nat) : ∃ tokens, Scan head limit offset tokens := by
  induction hleft : limit + 1 - offset using Nat.strong_induction_on generalizing offset with
  | _ left ih =>
    by_cases hle : offset ≤ limit
    · cases hhead : head offset with
      | none =>
        obtain ⟨tokens, hscan⟩ := ih (limit + 1 - (offset + 1)) (by omega) (offset + 1) rfl
        exact ⟨tokens, skip hle hhead hscan⟩
      | some token =>
        have hlt := hmoves offset token hhead
        obtain ⟨tokens, hscan⟩ := ih (limit + 1 - token.2.stop) (by omega) token.2.stop rfl
        exact ⟨token :: tokens, take hle hhead hscan⟩
    · exact ⟨[], stop (by omega)⟩

/-- Every token of a scan is the one that begins at some offset of the text. -/
theorem exists_head {offset : Nat} {tokens : List (α × Extent)}
    (h : Scan head limit offset tokens) : ∀ token ∈ tokens, ∃ k ≤ limit, head k = some token := by
  induction h with
  | stop => simp
  | skip _ _ _ ih => exact ih
  | @take offset _ _ hlimit hhead _ ih =>
    intro token hmem
    rcases List.mem_cons.mp hmem with rfl | hlater
    · exact ⟨offset, hlimit, hhead⟩
    · exact ih token hlater

section

variable (hstart : ∀ k token, head k = some token → token.2.start = k ∧ k < token.2.stop)

include hstart

/-- The tokens from an offset on begin there or later. -/
theorem start_le {offset : Nat} {tokens : List (α × Extent)}
    (h : Scan head limit offset tokens) : ∀ token ∈ tokens, offset ≤ token.2.start := by
  induction h with
  | stop => simp
  | skip _ _ _ ih => exact fun token hmem => Nat.le_of_succ_le (ih token hmem)
  | take _ hhead _ ih =>
    intro token hmem
    obtain ⟨hbegin, hmoves⟩ := hstart _ _ hhead
    rcases List.mem_cons.mp hmem with rfl | hlater
    · exact Nat.le_of_eq hbegin.symm
    · exact Nat.le_trans (Nat.le_of_lt hmoves) (ih token hlater)

/-- The tokens of a scan stand one behind the other. -/
theorem pairwise {offset : Nat} {tokens : List (α × Extent)}
    (h : Scan head limit offset tokens) : tokens.Pairwise fun a b => a.2.stop ≤ b.2.start := by
  induction h with
  | stop => exact List.Pairwise.nil
  | skip _ _ _ ih => exact ih
  | take _ _ hnext ih => exact List.Pairwise.cons (start_le hstart hnext) ih

/-- A scan whose tokens do not cross an offset passes through it. -/
theorem split {offset : Nat} {tokens : List (α × Extent)} (h : Scan head limit offset tokens)
    {middle : Nat} (hfrom : offset ≤ middle) (hto : middle ≤ limit)
    (hcross : ∀ token ∈ tokens, token.2.start < middle → token.2.stop ≤ middle) :
    ∃ before after, tokens = before ++ after ∧ (∀ token ∈ before, token.2.stop ≤ middle) ∧
      Scan head limit middle after := by
  induction h with
  | stop hlimit => omega
  | @skip offset tokens hlimit hhead hnext ih =>
    rcases Nat.eq_or_lt_of_le hfrom with rfl | hlt
    · exact ⟨[], tokens, rfl, by simp, skip hlimit hhead hnext⟩
    · exact ih hlt hcross
  | @take offset token tokens hlimit hhead hnext ih =>
    rcases Nat.eq_or_lt_of_le hfrom with rfl | hlt
    · exact ⟨[], token :: tokens, rfl, by simp, take hlimit hhead hnext⟩
    · have hstop := hcross token List.mem_cons_self (by rw [(hstart _ _ hhead).1]; exact hlt)
      obtain ⟨before, after, rfl, hbefore, hafter⟩ :=
        ih hstop fun other hmem => hcross other (List.mem_cons_of_mem token hmem)
      refine ⟨token :: before, after, rfl, ?_, hafter⟩
      intro other hmem
      rcases List.mem_cons.mp hmem with rfl | hother
      · exact hstop
      · exact hbefore other hother

/--
A scan of a part finds the tokens that a scan of the whole finds in a stretch of it, if they
end where both see the same tokens.
-/
theorem follow {head' : Nat → Option (α × Extent)} {limit' distance length : Nat}
    {fits : Nat → Prop} (hfits : ∀ stop, fits stop → stop ≤ distance + length)
    (hlimit : distance + length ≤ limit) (hlimit' : length ≤ limit')
    (hnone : ∀ k < length, head (distance + k) = none → head' k = none)
    (hsome : ∀ k < length, ∀ token, head (distance + k) = some token → fits token.2.stop →
      ∃ own, head' k = some own ∧ token = (own.1, own.2.shift distance))
    {offset : Nat} {tokens : List (α × Extent)} (h : Scan head limit offset tokens)
    (hfrom : distance ≤ offset) (hto : offset ≤ distance + length)
    (hcross : ∀ token ∈ tokens, token.2.start < distance + length → fits token.2.stop) :
    ∃ inside after, tokens = inside.map (fun own => (own.1, own.2.shift distance)) ++ after ∧
      Scan head limit (distance + length) after ∧
      ∀ more, Scan head' limit' length more →
        Scan head' limit' (offset - distance) (inside ++ more) := by
  induction h with
  | stop hover => omega
  | @skip offset tokens hle hhead hnext ih =>
    rcases Nat.eq_or_lt_of_le hto with rfl | hlt
    · refine ⟨[], tokens, rfl, skip hle hhead hnext, ?_⟩
      rw [Nat.add_sub_cancel_left]
      exact fun more hmore => hmore
    · obtain ⟨inside, after, rfl, hafter, hinside⟩ := ih (by omega) hlt hcross
      refine ⟨inside, after, rfl, hafter, fun more hmore => ?_⟩
      have hoffset : distance + (offset - distance) = offset := by omega
      have hnext' := hinside more hmore
      rw [Nat.sub_add_comm hfrom] at hnext'
      exact skip (by omega) (hnone _ (by omega) (by rw [hoffset]; exact hhead)) hnext'
  | @take offset token tokens hle hhead hnext ih =>
    obtain ⟨hbegin, hmoves⟩ := hstart _ _ hhead
    rcases Nat.eq_or_lt_of_le hto with rfl | hlt
    · refine ⟨[], token :: tokens, rfl, take hle hhead hnext, ?_⟩
      rw [Nat.add_sub_cancel_left]
      exact fun more hmore => hmore
    · have hstop := hcross token List.mem_cons_self (by omega)
      obtain ⟨inside, after, rfl, hafter, hinside⟩ := ih (by omega) (hfits _ hstop)
        fun other hmem => hcross other (List.mem_cons_of_mem token hmem)
      have hoffset : distance + (offset - distance) = offset := by omega
      obtain ⟨own, hown, rfl⟩ := hsome (offset - distance) (by omega) token
        (by rw [hoffset]; exact hhead) hstop
      refine ⟨own :: inside, after, rfl, hafter, fun more hmore => ?_⟩
      have hnext' := hinside more hmore
      rw [Extent.stop_shift, Nat.add_sub_cancel] at hnext'
      exact take (by omega) hown hnext'

end

end Scan

/-! ## Looking for matches -/

/--
What tells which match begins at a place is sound if it looks at the text and the place alone, not
at what was captured before, and if a match begins where it was looked for, reaches a later place
of the text, and has its groups inside it.
-/
structure Found.Sound (matchAt? : Place → Option Found) : Prop where
  at_eq : ∀ {text : Text} {place : Place}, place.At text →
    matchAt? place = matchAt? (Place.at_ text place.offset)
  forward : ∀ {text : Text} {place : Place} {found : Found}, place.At text →
    matchAt? place = some found →
      found.start = place.offset ∧ found.reached.At text ∧
        place.offset ≤ found.reached.offset ∧
        ∀ group ∈ found.reached.groups,
          place.offset ≤ group.2.start ∧ group.2.stop ≤ found.reached.offset

namespace Node

/-- The preferred match at a place of a text depends only on its offset. -/
theorem matchAt?_at (node : Node) {text : Text} {place : Place} (h : place.At text) :
    node.matchAt? place = node.matchAt? (Place.at_ text place.offset) := by
  rw [matchAt?_eq, matchAt?_eq, h.forget_eq]
  rfl

/-- A match reaches a later place of the text, and begins where it was looked for. -/
theorem matchAt?_some {node : Node} {text : Text} {place : Place} {found : Found}
    (h : place.At text) (hfound : node.matchAt? place = some found) :
    found.start = place.offset ∧ found.reached.At text ∧ place.offset ≤ found.reached.offset ∧
      ∀ group ∈ found.reached.groups,
        place.offset ≤ group.2.start ∧ group.2.stop ≤ found.reached.offset := by
  rw [matchAt?_eq] at hfound
  obtain ⟨reached, hhead, rfl⟩ := Option.map_eq_some_iff.mp hfound
  have hforward := node.forward_of_mem_ways place.forget reached (List.mem_of_head? hhead)
  refine ⟨rfl, hforward.at_ text ⟨h.offset_le, h.rest, h.before⟩, hforward.offset_le, ?_⟩
  intro group hgroup
  rcases hforward.groups group hgroup with hnone | hbetween
  · cases hnone
  · exact hbetween

/-- Looking for a match of a tree is sound. -/
theorem sound (node : Node) : Found.Sound node.matchAt? :=
  ⟨fun h => node.matchAt?_at h, fun h hfound => matchAt?_some h hfound⟩

end Node

namespace Found

variable {matchAt? : Place → Option Found}

/-- An extent up to a place that is not before its beginning is empty if it ends there. -/
theorem isEmpty_extent {found : Found} (hle : found.start ≤ found.reached.offset) :
    found.extent.isEmpty = true ↔ found.reached.offset = found.start := by
  unfold Extent.isEmpty Found.extent Extent.between
  rw [beq_iff_eq]
  dsimp only
  omega

/--
A look at a place keeps the match there, or it passes over an empty one if there is any and
goes on behind the next character.
-/
theorem allFrom_cases (matchAt? : Place → Option Found) {text : Text} {place : Place}
    (hat : place.At text) (fuel : Nat) (barred : Bool) :
    (∃ found, matchAt? place = some found ∧ (barred && found.extent.isEmpty) = false ∧
      allFrom matchAt? (fuel + 1) place barred =
        found :: allFrom matchAt? fuel found.reached true) ∨
    (∀ found, matchAt? place = some found → found.extent.isEmpty = true) ∧
      (place.offset = text.length ∧ allFrom matchAt? (fuel + 1) place barred = [] ∨
        ∃ next : Place, next.At text ∧ next.offset = place.offset + 1 ∧
          allFrom matchAt? (fuel + 1) place barred = allFrom matchAt? fuel next false) := by
  -- What is left to show where nothing is kept does not depend on why it is not.
  have hpassed
      (heq : allFrom matchAt? (fuel + 1) place barred =
        (place.take? (.complement .nothing)).elim [] fun next => allFrom matchAt? fuel next false) :
      place.offset = text.length ∧ allFrom matchAt? (fuel + 1) place barred = [] ∨
        ∃ next : Place, next.At text ∧ next.offset = place.offset + 1 ∧
          allFrom matchAt? (fuel + 1) place barred = allFrom matchAt? fuel next false := by
    rw [heq]
    cases htake : place.take? (.complement .nothing) with
    | none => exact .inl ⟨hat.offset_of_take htake, rfl⟩
    | some next =>
      obtain ⟨hnext, hoffset, -⟩ := hat.take htake
      exact .inr ⟨next, hnext, hoffset, rfl⟩
  cases hmatch : matchAt? place with
  | none =>
    refine .inr ⟨by simp, hpassed ?_⟩
    rw [allFrom, hmatch]
    cases place.take? (.complement .nothing) <;> rfl
  | some found =>
    cases hkept : barred && found.extent.isEmpty with
    | false =>
      refine .inl ⟨found, rfl, hkept, ?_⟩
      rw [allFrom, hmatch]
      exact if_neg (by rw [hkept]; exact Bool.false_ne_true)
    | true =>
      refine .inr ⟨?_, hpassed ?_⟩
      · rintro _ ⟨⟩
        exact (Bool.and_eq_true_iff.mp hkept).2
      · rw [allFrom, hmatch]
        refine (if_pos hkept).trans ?_
        cases place.take? (.complement .nothing) <;> rfl

section

variable {α : Type} (hsound : Sound matchAt?) (text : Text) (name : Found → Option (α × Extent))

/-- The token that begins at an offset. -/
def head (matchAt? : Place → Option Found) (text : Text) (name : Found → Option (α × Extent))
    (offset : Nat) : Option (α × Extent) :=
  (matchAt? (Place.at_ text offset)).bind name

include hsound

theorem head_offset {place : Place} (hat : place.At text) :
    head matchAt? text name place.offset = (matchAt? place).bind name := by
  unfold head
  rw [← hsound.at_eq hat]

variable (hname : ∀ offset found, offset ≤ text.length →
  matchAt? (Place.at_ text offset) = some found →
  if found.extent.isEmpty then name found = none
  else ∃ token, name found = some token ∧ token.2 = found.extent)

include hname

/-- Where no match has any text, no token begins. -/
theorem head_eq_none {place : Place} (hat : place.At text)
    (hempty : ∀ found, matchAt? place = some found → found.extent.isEmpty = true) :
    head matchAt? text name place.offset = none := by
  rw [head_offset hsound text name hat]
  cases hmatch : matchAt? place with
  | none => rfl
  | some found =>
    have hfound := hname place.offset found hat.offset_le (by rw [← hsound.at_eq hat, hmatch])
    rw [if_pos (hempty found hmatch)] at hfound
    exact hfound

/-- A match with some text makes the token that begins there and ends where the match does. -/
theorem head_eq_some {place : Place} (hat : place.At text) {found : Found}
    (hmatch : matchAt? place = some found) (hnonempty : found.extent.isEmpty = false) :
    ∃ token, name found = some token ∧ head matchAt? text name place.offset = some token ∧
      token.2.stop = found.reached.offset := by
  obtain ⟨hstart, -, hforward, -⟩ := hsound.forward hat hmatch
  have hfound := hname place.offset found hat.offset_le (by rw [← hsound.at_eq hat, hmatch])
  rw [hnonempty, if_neg Bool.false_ne_true] at hfound
  obtain ⟨token, htoken, hextent⟩ := hfound
  refine ⟨token, htoken, ?_, ?_⟩
  · rw [head_offset hsound text name hat, hmatch]
    exact htoken
  · rw [hextent]
    exact Extent.stop_between (by omega)

/--
The matches that make tokens are those of a scan, if exactly the matches with some text
make tokens.  The fuel covers each character twice: an empty match is followed by a look
at the same place.
-/
theorem scan_allFrom (fuel : Nat) (place : Place) (barred : Bool) (hat : place.At text)
    (hfuel : 2 * (text.length - place.offset) + (if barred then 1 else 2) ≤ fuel) :
    Scan (head matchAt? text name) text.length place.offset
      ((allFrom matchAt? fuel place barred).filterMap name) := by
  induction fuel generalizing place barred with
  | zero => cases barred <;> simp at hfuel
  | succ fuel ih =>
    have hle := hat.offset_le
    rcases allFrom_cases matchAt? hat fuel barred with
      ⟨found, hmatch, hkept, heq⟩ | ⟨hempty, ⟨hlast, heq⟩ | ⟨next, hnext, hoffset, heq⟩⟩
    · obtain ⟨hstart, hreached, hforward, -⟩ := hsound.forward hat hmatch
      have hreachedLe := hreached.offset_le
      have hend : found.extent.isEmpty = true ↔ found.reached.offset = found.start :=
        isEmpty_extent (by omega)
      rw [heq]
      cases hnonempty : found.extent.isEmpty with
      | true =>
        -- An empty match makes no token; the next look is at the same place, and barred.
        obtain rfl : barred = false := by rw [hnonempty, Bool.and_true] at hkept; exact hkept
        have hnone : name found = none := by
          have hfound := hname place.offset found hle (by rw [← hsound.at_eq hat, hmatch])
          rwa [if_pos hnonempty] at hfound
        have hsame : found.reached.offset = place.offset := by rw [hend.mp hnonempty, hstart]
        have hscan := ih found.reached true hreached (by
          rw [hsame]
          simp at hfuel ⊢
          omega)
        rw [hsame] at hscan
        rw [List.filterMap_cons_none hnone]
        exact hscan
      | false =>
        obtain ⟨token, htoken, hhead, hstop⟩ :=
          head_eq_some hsound text name hname hat hmatch hnonempty
        have hlater : found.reached.offset ≠ found.start := fun h => by
          rw [hend.mpr h] at hnonempty
          cases hnonempty
        rw [List.filterMap_cons_some htoken]
        refine Scan.take hle hhead ?_
        rw [hstop]
        exact ih found.reached true hreached (by cases barred <;> simp at hfuel ⊢ <;> omega)
    · rw [heq]
      exact Scan.skip hle (head_eq_none hsound text name hname hat hempty) (Scan.stop (by omega))
    · have hnextLe := hnext.offset_le
      have hscan := ih next false hnext (by
        rw [hoffset]
        cases barred <;> simp at hfuel ⊢ <;> omega)
      rw [hoffset] at hscan
      rw [heq]
      exact Scan.skip hle (head_eq_none hsound text name hname hat hempty) hscan

/-- The matches that make tokens are those of a scan of the text. -/
theorem scan_all :
    Scan (head matchAt? text name) text.length 0 ((all matchAt? text).filterMap name) := by
  have hstart : (Place.start text).At text := by
    rw [Place.at_start]
    exact Place.at_at (Nat.zero_le _)
  exact scan_allFrom hsound text name hname _ (Place.start text) false hstart (Nat.le_refl _)

end

end Found

end ScratchEditor

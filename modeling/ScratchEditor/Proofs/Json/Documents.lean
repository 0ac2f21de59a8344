import Mathlib.Data.List.TakeWhile
import ScratchEditor.Json.Writer
import ScratchEditor.Proofs.Json.Escapes

/-!
# Documents are read back

A value is written with blanks between its tokens.  The reader passes over them, so it finds every
token where the next one is due, and a number ends where a comma, a bracket or a line feed
follows.  Texts and counts are spelled the way numbers and strings have to be, and so is what a
person may add by hand.

Main definitions:

- `Json.IsNumber` and `Json.IsBody`: what is spelled like a number or a string.
- `Json.Written`: values whose numbers, strings and keys are spelled as they have to be.
- `Json.EndsNumber`: what a number does not go on with.

Main results:

- `Json.number?_append` and `Json.body?_append`: a number and a string are read with any text
  behind them.
- `Json.value?_prettyAt`: a written value is read, and what follows it is left.
- `Json.parse?_pretty`: a document is read back.
-/

namespace ScratchEditor

namespace Json

/-! ## Written values -/

/-- A text that is spelled like a number, to its end. -/
def IsNumber (spelling : Text) : Prop :=
  number? spelling = some (.number spelling, [])

/-- A text that can stand between the quotes of a string. -/
def IsBody (body : Text) : Prop :=
  body? (body ++ ['"']) = some (body, [])

/-- A value whose numbers, strings and keys are spelled as they have to be. -/
inductive Written : Json → Prop
  | null : Written .null
  | bool (value : Bool) : Written (.bool value)
  | number {spelling : Text} (h : IsNumber spelling) : Written (.number spelling)
  | string {body : Text} (h : IsBody body) : Written (.string body)
  | array {items : List Json} (hitems : ∀ item ∈ items, Written item) : Written (.array items)
  | object {members : List (Text × Json)} (hkeys : ∀ member ∈ members, IsBody member.1)
    (hvalues : ∀ member ∈ members, Written member.2) : Written (.object members)

/-! ## Blanks -/

/-- No blank comes next. -/
theorem skip_cons {c : Char} (h : isSeparator c = false) (rest : Text) :
    skip (c :: rest) = c :: rest := by
  simp [skip, h]

/-- A new line is passed over. -/
@[simp]
theorem skip_newLine (level : Nat) (rest : Text) : skip (newLine level ++ rest) = skip rest := by
  apply List.dropWhile_append_of_pos
  intro c hc
  simp only [newLine, List.mem_cons, List.mem_replicate] at hc
  rcases hc with rfl | ⟨-, rfl⟩ <;> rfl

@[simp]
theorem skip_skip (text : Text) : skip (skip text) = skip text := by
  induction text with
  | nil => rfl
  | cons c text ih =>
    by_cases hblank : isSeparator c = true
    · simpa [skip, hblank] using ih
    · simp [skip, hblank]

/-- Blanks before a value do not matter. -/
theorem value?_skip (fuel : Nat) (text : Text) : value? fuel (skip text) = value? fuel text := by
  cases fuel with
  | zero => rfl
  | succ fuel => simp only [value?, skip_skip]

/-! ## Numbers -/

/-- What a number does not go on with. -/
def EndsNumber (rest : Text) : Prop :=
  ∀ c ∈ rest.head?, c.isDigit = false ∧ c ≠ '.' ∧ c ≠ 'e' ∧ c ≠ 'E'

theorem endsNumber_nil : EndsNumber [] := by
  simp [EndsNumber]

theorem endsNumber_newLine (level : Nat) (rest : Text) : EndsNumber (newLine level ++ rest) := by
  simp [EndsNumber, newLine]

theorem endsNumber_comma (rest : Text) : EndsNumber (',' :: rest) := by
  simp [EndsNumber]

/-- What follows a number is no part of a run of digits. -/
theorem EndsNumber.takeWhile {rest : Text} (h : EndsNumber rest) :
    rest.takeWhile Char.isDigit = [] := by
  cases rest with
  | nil => rfl
  | cons c rest => simp [(h c rfl).1]

@[inherit_doc EndsNumber.takeWhile]
theorem EndsNumber.dropWhile {rest : Text} (h : EndsNumber rest) :
    rest.dropWhile Char.isDigit = rest := by
  cases rest with
  | nil => rfl
  | cons c rest => simp [(h c rfl).1]

section

variable {text part left rest : Text} (hrest : EndsNumber rest)

include hrest

theorem digits?_append (h : digits? text = some (part, left)) :
    digits? (text ++ rest) = some (part, left ++ rest) := by
  have htake : (text ++ rest).takeWhile Char.isDigit = text.takeWhile Char.isDigit := by
    rw [List.takeWhile_append, hrest.takeWhile, List.append_nil]
    split_ifs with hall
    · exact ((List.takeWhile_prefix _).eq_of_length hall).symm
    · rfl
  have hdrop : (text ++ rest).dropWhile Char.isDigit = text.dropWhile Char.isDigit ++ rest := by
    rw [List.dropWhile_append, hrest.dropWhile]
    split_ifs with hall
    · rw [List.isEmpty_iff.mp hall, List.nil_append]
    · rfl
  unfold digits? at h ⊢
  rw [htake, hdrop]
  dsimp only at h ⊢
  split_ifs at h with hnone
  obtain ⟨rfl, rfl⟩ := Prod.mk.inj (Option.some.inj h)
  rw [if_neg hnone]

theorem integer?_append (h : integer? text = some (part, left)) :
    integer? (text ++ rest) = some (part, left ++ rest) := by
  cases text with
  | nil => cases h
  | cons c text =>
    by_cases hzero : c = '0'
    · subst hzero
      obtain ⟨rfl, rfl⟩ := Prod.mk.inj (Option.some.inj h)
      rfl
    · have hdigits (more : Text) : integer? (c :: more) = digits? (c :: more) := by
        unfold integer?
        split
        · rename_i heq
          exact absurd (List.cons.inj heq).1 hzero
        · rfl
      rw [hdigits] at h
      rw [List.cons_append, hdigits, ← List.cons_append]
      exact digits?_append hrest h

theorem fraction?_append (h : fraction? text = some (part, left)) :
    fraction? (text ++ rest) = some (part, left ++ rest) := by
  have hnone {c : Char} (hc : c ≠ '.') (more : Text) :
      fraction? (c :: more) = some ([], c :: more) := by
    unfold fraction?
    split
    · rename_i heq
      exact absurd (List.cons.inj heq).1 hc
    · rfl
  cases text with
  | nil =>
    obtain ⟨rfl, rfl⟩ := Prod.mk.inj (Option.some.inj h)
    cases rest with
    | nil => rfl
    | cons c rest => exact hnone (hrest c rfl).2.1 rest
  | cons c text =>
    by_cases hpoint : c = '.'
    · subst hpoint
      obtain ⟨⟨digits, behind⟩, hdigits, heq⟩ := Option.map_eq_some_iff.mp h
      obtain ⟨rfl, rfl⟩ := Prod.mk.inj heq
      exact Option.map_eq_some_iff.mpr ⟨_, digits?_append hrest hdigits, rfl⟩
    · rw [hnone hpoint] at h
      obtain ⟨rfl, rfl⟩ := Prod.mk.inj (Option.some.inj h)
      exact hnone hpoint (text ++ rest)

theorem exponent?_append (h : exponent? text = some (part, left)) :
    exponent? (text ++ rest) = some (part, left ++ rest) := by
  have hnone {c : Char} (hc : ¬ (c = 'e' ∨ c = 'E')) (more : Text) :
      exponent? (c :: more) = some ([], c :: more) := if_neg hc
  cases text with
  | nil =>
    obtain ⟨rfl, rfl⟩ := Prod.mk.inj (Option.some.inj h)
    cases rest with
    | nil => rfl
    | cons c rest => exact hnone (not_or.mpr (hrest c rfl).2.2) rest
  | cons c text =>
    by_cases hmark : c = 'e' ∨ c = 'E'
    · have hsome (more : Text) : exponent? (c :: more) =
          (digits? (exponentSign more).2).map fun part =>
            (c :: (exponentSign more).1 ++ part.1, part.2) := if_pos hmark
      rw [hsome] at h
      obtain ⟨⟨digits, behind⟩, hdigits, heq⟩ := Option.map_eq_some_iff.mp h
      obtain ⟨rfl, rfl⟩ := Prod.mk.inj heq
      -- digits follow the mark, so the sign does not hang on what follows the number
      have hsign : exponentSign (text ++ rest) =
          ((exponentSign text).1, (exponentSign text).2 ++ rest) := by
        cases text with
        | nil => cases hdigits
        | cons d text =>
          unfold exponentSign
          split <;> simp_all
      rw [List.cons_append, hsome, hsign]
      exact Option.map_eq_some_iff.mpr ⟨_, digits?_append hrest hdigits, rfl⟩
    · rw [hnone hmark] at h
      obtain ⟨rfl, rfl⟩ := Prod.mk.inj (Option.some.inj h)
      exact hnone hmark (text ++ rest)

theorem unsigned?_append (h : unsigned? text = some (part, left)) :
    unsigned? (text ++ rest) = some (part, left ++ rest) := by
  obtain ⟨⟨whole, behind⟩, hwhole, h⟩ := Option.bind_eq_some_iff.mp h
  obtain ⟨⟨fraction, behind'⟩, hfraction, h⟩ := Option.bind_eq_some_iff.mp h
  obtain ⟨⟨exponent, behind''⟩, hexponent, h⟩ := Option.bind_eq_some_iff.mp h
  obtain ⟨rfl, rfl⟩ := Prod.mk.inj (Option.some.inj h)
  simp [unsigned?, integer?_append hrest hwhole, fraction?_append hrest hfraction,
    exponent?_append hrest hexponent]

end

theorem number?_append {text left rest : Text} {value : Json} (hrest : EndsNumber rest)
    (h : number? text = some (value, left)) :
    number? (text ++ rest) = some (value, left ++ rest) := by
  have hplain {c : Char} (hc : c ≠ '-') (more : Text) : number? (c :: more) =
      (unsigned? (c :: more)).map fun part => (.number part.1, part.2) := by
    unfold number?
    split
    · rename_i heq
      exact absurd (List.cons.inj heq).1 hc
    · rfl
  cases text with
  | nil => cases h
  | cons c text =>
    by_cases hsign : c = '-'
    · subst hsign
      obtain ⟨⟨digits, behind⟩, hdigits, heq⟩ := Option.map_eq_some_iff.mp h
      obtain ⟨rfl, rfl⟩ := Prod.mk.inj heq
      exact Option.map_eq_some_iff.mpr ⟨_, unsigned?_append hrest hdigits, rfl⟩
    · rw [hplain hsign] at h
      obtain ⟨⟨digits, behind⟩, hdigits, heq⟩ := Option.map_eq_some_iff.mp h
      obtain ⟨rfl, rfl⟩ := Prod.mk.inj heq
      rw [List.cons_append, hplain hsign]
      exact Option.map_eq_some_iff.mpr ⟨_, unsigned?_append hrest hdigits, rfl⟩

/-- A number begins with a sign or a digit. -/
theorem exists_of_number? {text left : Text} {value : Json}
    (h : number? text = some (value, left)) :
    ∃ c rest, text = c :: rest ∧ (c = '-' ∨ c.isDigit = true) := by
  cases text with
  | nil => cases h
  | cons c rest =>
    refine ⟨c, rest, rfl, ?_⟩
    by_contra hother
    obtain ⟨hsign, hdigit⟩ := not_or.mp hother
    have hzero : c ≠ '0' := by
      rintro rfl
      exact hdigit rfl
    have hunsigned : unsigned? (c :: rest) = none := by
      have hinteger : integer? (c :: rest) = none := by
        unfold integer?
        split
        · rename_i heq
          exact absurd (List.cons.inj heq).1 hzero
        · simp [digits?, hdigit]
      rw [unsigned?, hinteger]
      rfl
    unfold number? at h
    split at h
    · rename_i heq
      exact hsign (List.cons.inj heq).1
    · rw [hunsigned] at h
      cases h

/-- A count is spelled like a number. -/
theorem isNumber_decimal (n : Nat) : IsNumber (decimal n) := by
  obtain ⟨c, digits, hcons, hdigit⟩ := exists_decimal_eq_cons n
  have hall : ∀ d ∈ decimal n, d.isDigit = true := isDigit_of_mem_decimal n
  have hdigits : digits? (decimal n) = some (decimal n, []) := by
    have htake : (decimal n).takeWhile Char.isDigit = decimal n :=
      List.takeWhile_eq_self_iff.mpr hall
    have hdrop : (decimal n).dropWhile Char.isDigit = [] := List.dropWhile_eq_nil_iff.mpr hall
    simp [digits?, htake, hdrop, decimal_ne_nil n]
  have hinteger : integer? (decimal n) = some (decimal n, []) := by
    by_cases hzero : n = 0
    · rw [hzero]
      rfl
    · unfold integer?
      split
      · rename_i heq
        rw [hcons, List.cons.injEq] at heq
        rw [heq.1] at hcons
        exact absurd (eq_zero_of_decimal hcons) hzero
      · exact hdigits
  have hunsigned : unsigned? (decimal n) = some (decimal n, []) := by
    simp [unsigned?, hinteger, fraction?, exponent?]
  unfold IsNumber number?
  split
  · rename_i heq
    rw [hcons, List.cons.injEq] at heq
    rw [heq.1] at hdigit
    exact absurd hdigit (by decide)
  · rw [hunsigned]
    rfl

/-- No digit is a blank. -/
theorem isSeparator_of_isDigit {c : Char} (h : c.isDigit = true) : isSeparator c = false := by
  by_contra hblank
  simp only [isSeparator, Bool.not_eq_false, Bool.or_eq_true, beq_iff_eq] at hblank
  rcases hblank with ((rfl | rfl) | rfl) | rfl <;> cases h

/-- A number is a value. -/
theorem value?_number {spelling : Text} (h : IsNumber spelling) (fuel : Nat) {rest : Text}
    (hrest : EndsNumber rest) :
    value? (fuel + 1) (spelling ++ rest) = some (.number spelling, rest) := by
  have hnumber := number?_append hrest h
  obtain ⟨c, more, rfl, hbegins⟩ := exists_of_number? h
  have hblank : isSeparator c = false := by
    rcases hbegins with rfl | hdigit
    · rfl
    · exact isSeparator_of_isDigit hdigit
  rw [List.cons_append, List.nil_append] at hnumber
  rw [List.cons_append]
  unfold value?
  rw [skip_cons hblank]
  split
  case h_7 => exact hnumber
  all_goals
    rename_i heq
    obtain ⟨rfl, -⟩ := List.cons.inj heq
    rcases hbegins with hsign | hdigit
    · cases hsign
    · cases hdigit

/-! ## Strings -/

/-- The body of a string ends at its quote, whatever follows. -/
theorem body?_append {text body left : Text} (h : body? text = some (body, left)) (rest : Text) :
    body? (text ++ rest) = some (body, left ++ rest) := by
  fun_induction body? text generalizing body left with
  | case1 => cases h
  | case2 more =>
    obtain ⟨rfl, rfl⟩ := Prod.mk.inj (Option.some.inj h)
    rfl
  | case3 a b c d more hhex ih =>
    obtain ⟨⟨later, behind⟩, hlater, heq⟩ := Option.map_eq_some_iff.mp h
    obtain ⟨rfl, rfl⟩ := Prod.mk.inj heq
    simp [body?, hhex, ih hlater]
  | case4 => cases h
  | case5 c more hshort hletter ih =>
    obtain ⟨⟨later, behind⟩, hlater, heq⟩ := Option.map_eq_some_iff.mp h
    obtain ⟨rfl, rfl⟩ := Prod.mk.inj heq
    rw [List.cons_append, List.cons_append, body?_escape hletter, ih hlater]
    rfl
  | case6 => cases h
  | case7 => cases h
  | case8 c more hquote hshort hescape hplain ih =>
    obtain ⟨⟨later, behind⟩, hlater, heq⟩ := Option.map_eq_some_iff.mp h
    obtain ⟨rfl, rfl⟩ := Prod.mk.inj heq
    rw [List.cons_append, body?_plain hquote hplain, ih hlater]
    rfl

/-- What stands between quotes is read up to the closing one. -/
theorem IsBody.read {body : Text} (h : IsBody body) (rest : Text) :
    body? (body ++ '"' :: rest) = some (body, rest) := by
  have hread := body?_append h rest
  rwa [List.append_assoc, List.singleton_append, List.nil_append] at hread

theorem isBody_encodeText (text : Text) : IsBody (encodeText text) :=
  body?_encodeText text []

/-! ## Values -/

theorem Written.ofNat (n : Nat) : Written (ofNat n) :=
  .number (isNumber_decimal n)

theorem Written.ofText (text : Text) : Written (ofText text) :=
  .string (isBody_encodeText text)

/-- A value at a level is read with enough fuel, and what follows it is left. -/
def ReadBack (level : Nat) (value : Json) : Prop :=
  ∀ fuel rest, EndsNumber rest → 2 * (prettyAt level value).length ≤ fuel →
    value? fuel (prettyAt level value ++ rest) = some (value, rest)

/-- A new line before a value does not matter. -/
@[simp]
theorem value?_newLine (fuel level : Nat) (text : Text) :
    value? fuel (newLine level ++ text) = value? fuel text := by
  rw [← value?_skip, skip_newLine, value?_skip]

/-- A blank before a value does not matter. -/
@[simp]
theorem value?_space (fuel : Nat) (text : Text) : value? fuel (' ' :: text) = value? fuel text := by
  rw [← value?_skip, ← value?_skip fuel text]
  rfl

theorem exists_enclose_eq_cons (opening closing : Char) (level : Nat) (parts : List Text) :
    ∃ rest, enclose opening closing level parts = opening :: rest := by
  cases parts with
  | nil => exact ⟨_, rfl⟩
  | cons part parts => exact ⟨_, rfl⟩

/-- A written value does not begin with a blank or a closing bracket. -/
theorem exists_prettyAt_eq_cons {value : Json} (h : Written value) (level : Nat) :
    ∃ c rest, prettyAt level value = c :: rest ∧ isSeparator c = false ∧ c ≠ ']' := by
  cases h with
  | null => exact ⟨'n', _, rfl, by decide, by decide⟩
  | bool value => cases value with
    | true => exact ⟨'t', _, rfl, by decide, by decide⟩
    | false => exact ⟨'f', _, rfl, by decide, by decide⟩
  | number hnumber =>
    obtain ⟨c, digits, hcons, hbegins⟩ := exists_of_number? hnumber
    refine ⟨c, digits, hcons, ?_⟩
    rcases hbegins with rfl | hdigit
    · exact ⟨rfl, by decide⟩
    · refine ⟨isSeparator_of_isDigit hdigit, ?_⟩
      rintro rfl
      cases hdigit
  | string hbody => exact ⟨'"', _, rfl, by decide, by decide⟩
  | array hitems =>
    obtain ⟨rest, hrest⟩ := exists_enclose_eq_cons '[' ']' level _
    exact ⟨'[', rest, hrest, by decide, by decide⟩
  | object hkeys hvalues =>
    obtain ⟨rest, hrest⟩ := exists_enclose_eq_cons '{' '}' level _
    exact ⟨'{', rest, hrest, by decide, by decide⟩

/-- The items of an array are read up to its bracket. -/
theorem items?_prettyItems (level outer : Nat) {items : List Json} (hne : items ≠ [])
    (hitems : ∀ item ∈ items, ReadBack level item) (fuel : Nat) (rest : Text)
    (hfuel : 2 * (joinWith (',' :: newLine level) (prettyItems level items)).length + 1 ≤ fuel) :
    items? fuel (newLine level ++ (joinWith (',' :: newLine level) (prettyItems level items) ++
      (newLine outer ++ ']' :: rest))) = some (items, rest) := by
  induction items generalizing fuel with
  | nil => exact absurd rfl hne
  | cons item items ih =>
    obtain ⟨fuel, rfl⟩ : ∃ n, fuel = n + 1 := Nat.exists_eq_add_of_le' (by omega)
    have hitem := hitems item List.mem_cons_self
    cases items with
    | nil =>
      simp only [prettyItems, joinWith] at hfuel ⊢
      have hvalue := hitem fuel (newLine outer ++ ']' :: rest) (endsNumber_newLine _ _) (by omega)
      simp [items?, hvalue, skip_cons, isSeparator]
    | cons second items =>
      simp only [prettyItems, joinWith, List.length_append, List.length_cons] at hfuel ih ⊢
      -- the comma ends the first item, and the others begin on the next line
      have hmore := ih (List.cons_ne_nil _ _)
        (fun other hother => hitems other (List.mem_cons_of_mem _ hother)) fuel
        (by omega)
      have hvalue := hitem fuel _ (endsNumber_comma (newLine level ++ (joinWith
        (',' :: newLine level) (prettyAt level second :: prettyItems level items) ++
          (newLine outer ++ ']' :: rest)))) (by omega)
      simp [items?, hvalue, skip_cons, isSeparator, hmore]

/-- A key and its colon are read, and the value is left. -/
theorem key?_newLine (level : Nat) {key : Text} (h : IsBody key) (rest : Text) :
    key? (newLine level ++ '"' :: (key ++ '"' :: rest)) = some (key, rest) := by
  simp [key?, skip_cons, isSeparator, h.read]

/-- The members of an object are read up to its brace. -/
theorem members?_prettyMembers (level outer : Nat) {members : List (Text × Json)}
    (hne : members ≠ []) (hkeys : ∀ member ∈ members, IsBody member.1)
    (hvalues : ∀ member ∈ members, ReadBack level member.2) (fuel : Nat) (rest : Text)
    (hfuel : 2 * (joinWith (',' :: newLine level) (prettyMembers level members)).length + 1 ≤
      fuel) :
    members? fuel (newLine level ++ (joinWith (',' :: newLine level)
      (prettyMembers level members) ++ (newLine outer ++ '}' :: rest))) =
        some (members, rest) := by
  induction members generalizing fuel with
  | nil => exact absurd rfl hne
  | cons member members ih =>
    obtain ⟨fuel, rfl⟩ : ∃ n, fuel = n + 1 := Nat.exists_eq_add_of_le' (by omega)
    obtain ⟨key, value⟩ := member
    have hkey : IsBody key := hkeys _ List.mem_cons_self
    have hmember : ReadBack level value := hvalues _ List.mem_cons_self
    cases members with
    | nil =>
      simp only [prettyMembers, joinWith, quoteBody, List.length_append] at hfuel ⊢
      have hvalue := hmember fuel (newLine outer ++ '}' :: rest) (endsNumber_newLine _ _)
        (by omega)
      simp [members?, key?_newLine level hkey, colon?, skip_cons, isSeparator, hvalue]
    | cons second members =>
      obtain ⟨other, second⟩ := second
      simp only [prettyMembers, joinWith, List.length_append, List.length_cons] at hfuel ih ⊢
      -- as for items, with the key and its colon in front of the value
      have hmore := ih (List.cons_ne_nil _ _)
        (fun other hother => hkeys other (List.mem_cons_of_mem _ hother))
        (fun other hother => hvalues other (List.mem_cons_of_mem _ hother)) fuel
        (by omega)
      have hvalue := hmember fuel _ (endsNumber_comma (newLine level ++ (joinWith
        (',' :: newLine level) ((quoteBody other ++ [':', ' '] ++ prettyAt level second) ::
          prettyMembers level members) ++ (newLine outer ++ '}' :: rest)))) (by omega)
      simp only [quoteBody, List.append_assoc, List.cons_append, List.nil_append] at hmore hvalue ⊢
      simp [members?, key?_newLine level hkey, colon?, skip_cons, isSeparator, hvalue, hmore]

/-- A value that is written takes fuel to read. -/
theorem readBack_of_succ {level : Nat} {value : Json} (h : Written value)
    (hread : ∀ fuel rest, EndsNumber rest → 2 * (prettyAt level value).length ≤ fuel + 1 →
      value? (fuel + 1) (prettyAt level value ++ rest) = some (value, rest)) :
    ReadBack level value := by
  intro fuel rest hrest hfuel
  cases fuel with
  | zero =>
    obtain ⟨c, more, hcons, -⟩ := exists_prettyAt_eq_cons h level
    simp [hcons] at hfuel
  | succ fuel => exact hread fuel rest hrest hfuel

/-- A separated list begins with its first part. -/
theorem exists_joinWith_eq_append (separator first : Text) (parts : List Text) :
    ∃ more, joinWith separator (first :: parts) = first ++ more := by
  cases parts with
  | nil => exact ⟨[], (List.append_nil _).symm⟩
  | cons second parts => exact ⟨_, List.append_assoc _ _ _⟩

/-- The items of an array stand between its brackets. -/
theorem value?_array {level : Nat} {items : List Json} (hwritten : ∀ item ∈ items, Written item)
    (hitems : ∀ item ∈ items, ReadBack (level + 1) item) {fuel : Nat} (rest : Text)
    (hfuel : 2 * (prettyAt level (.array items)).length ≤ fuel + 1) :
    value? (fuel + 1) (prettyAt level (.array items) ++ rest) = some (.array items, rest) := by
  cases items with
  | nil => simp [prettyAt, prettyItems, enclose, value?, skip_cons, isSeparator]
  | cons item items =>
    simp only [prettyAt, prettyItems, enclose, List.length_append, List.length_cons] at hfuel
    have hread := items?_prettyItems (level + 1) level (List.cons_ne_nil item items) hitems
      fuel rest
      (by simp only [prettyItems, newLine, List.length_cons] at hfuel ⊢; omega)
    -- what follows the bracket is the first item, which does not close the array
    obtain ⟨c, first, hfirst, hblank, hopen⟩ :=
      exists_prettyAt_eq_cons (hwritten item List.mem_cons_self) (level + 1)
    obtain ⟨more, hmore⟩ := exists_joinWith_eq_append (',' :: newLine (level + 1))
      (prettyAt (level + 1) item) (prettyItems (level + 1) items)
    simp only [prettyAt, prettyItems, enclose, hmore] at hread ⊢
    simp only [hfirst, List.cons_append, List.nil_append, List.append_assoc] at hread ⊢
    simp only [value?, skip_cons (c := '[') rfl, skip_newLine, skip_cons hblank]
    split
    case h_1 heq => exact absurd (List.cons.inj heq).1 hopen
    case h_2 => simp [hread]

/-- The members of an object stand between its braces. -/
theorem value?_object {level : Nat} {members : List (Text × Json)}
    (hkeys : ∀ member ∈ members, IsBody member.1)
    (hvalues : ∀ member ∈ members, ReadBack (level + 1) member.2) {fuel : Nat} (rest : Text)
    (hfuel : 2 * (prettyAt level (.object members)).length ≤ fuel + 1) :
    value? (fuel + 1) (prettyAt level (.object members) ++ rest) =
      some (.object members, rest) := by
  cases members with
  | nil => simp [prettyAt, prettyMembers, enclose, value?, skip_cons, isSeparator]
  | cons member members =>
    simp only [prettyAt, prettyMembers, enclose, List.length_append, List.length_cons] at hfuel
    have hread := members?_prettyMembers (level + 1) level (List.cons_ne_nil member members) hkeys
      hvalues fuel rest
      (by simp only [prettyMembers, newLine, List.length_cons] at hfuel ⊢; omega)
    -- what follows the brace is the quote of the first key
    obtain ⟨more, hmore⟩ := exists_joinWith_eq_append (',' :: newLine (level + 1))
      (quoteBody member.1 ++ [':', ' '] ++ prettyAt (level + 1) member.2)
      (prettyMembers (level + 1) members)
    simp only [prettyAt, prettyMembers, enclose, hmore] at hread ⊢
    simp only [quoteBody, List.cons_append, List.nil_append, List.append_assoc] at hread ⊢
    simp [value?, skip_cons, isSeparator, hread]

/-- A written value is read, and what follows it is left. -/
theorem value?_prettyAt {value : Json} (h : Written value) (level : Nat) :
    ReadBack level value := by
  -- an array or object needs the values in it one level further in
  have hwritten := h
  induction h generalizing level with
  | null =>
    apply readBack_of_succ hwritten
    intro fuel rest _ _
    simp [prettyAt, value?, skip_cons, isSeparator, word?]
  | bool value =>
    apply readBack_of_succ hwritten
    intro fuel rest _ _
    cases value <;> simp [prettyAt, value?, skip_cons, isSeparator, word?]
  | number hnumber =>
    apply readBack_of_succ hwritten
    intro fuel rest hrest _
    exact value?_number hnumber fuel hrest
  | string hbody =>
    apply readBack_of_succ hwritten
    intro fuel rest _ _
    simp [prettyAt, quoteBody, value?, skip_cons, isSeparator, hbody.read]
  | @array items hitems ih =>
    apply readBack_of_succ hwritten
    intro fuel rest _ hfuel
    have hread : ∀ item ∈ items, ReadBack (level + 1) item :=
      fun item hitem => ih item hitem (level + 1) (hitems item hitem)
    exact value?_array hitems hread rest hfuel
  | @object members hkeys hvalues ih =>
    apply readBack_of_succ hwritten
    intro fuel rest _ hfuel
    have hread : ∀ member ∈ members, ReadBack (level + 1) member.2 :=
      fun member hmember => ih member hmember (level + 1) (hvalues member hmember)
    exact value?_object hkeys hread rest hfuel

/-- A document is read back. -/
theorem parse?_pretty {value : Json} (h : Written value) : parse? (pretty value) = some value := by
  have hvalue := value?_prettyAt h 0 (2 * (pretty value).length + 1) [] endsNumber_nil (by
    simp [pretty])
  rw [List.append_nil, ← pretty] at hvalue
  simp [parse?, hvalue, skip]

end Json

end ScratchEditor

import Mathlib.Data.List.Basic
import Mathlib.Tactic.SplitIfs
import Mathlib.Tactic.ByContra
import ScratchEditor.Text.Utf8

/-!
# Reading encoded characters

Reading the first character of some bytes has three outcomes, and each of them is
a fact about the encodings of characters alone: the bytes begin with an encoding,
they are the beginning of an encoding that goes on, or their longest piece of that
kind is followed by a byte that does not fit.

Main definitions:

- `Continues`: bytes that may follow a lead byte.
- `BeginsChar`: bytes that are the beginning of a longer encoding.
- `MaximalSubpart`: the longest piece that could have begun a character.

Main results:

- `exists_encodeChar_eq_cons_iff` and `beginsChar_cons_iff`: encodings and their
  beginnings by lead byte and continuation bytes.
- `encodeChar_prefix_unique`: bytes begin with the encoding of at most one
  character.
- `read_cases`: the three outcomes of reading a character.
-/

namespace ScratchEditor

namespace Utf8

/-! ## Continuation bytes -/

/-- Bytes that may follow a lead byte: the first in the range that the lead byte announces, the
others in the range of all continuation bytes. -/
def Continues : Nat → Nat → Bytes → Prop
  | _, _, [] => True
  | low, high, b :: rest => (low ≤ b.toNat ∧ b.toNat ≤ high) ∧ Continues 0x80 0xBF rest

/-- A number with the six bits of a continuation byte behind its own. -/
def addTail (bits : Nat) (b : UInt8) : Nat :=
  bits * 64 + (b.toNat - 0x80)

/-- The number that a lead byte's own bits and the continuation bytes behind it make up. -/
def tailValue (bits : Nat) (tails : Bytes) : Nat :=
  tails.foldl addTail bits

theorem addTail_eq (bits : Nat) (b : UInt8) :
    addTail bits b = bits * 64 + (b.toNat - 0x80) :=
  rfl

@[simp]
theorem tailValue_nil (bits : Nat) : tailValue bits [] = bits :=
  rfl

@[simp]
theorem tailValue_cons (bits : Nat) (b : UInt8) (rest : Bytes) :
    tailValue bits (b :: rest) = tailValue (addTail bits b) rest := by
  simp only [tailValue, List.foldl_cons]

@[simp]
theorem continues_nil (low high : Nat) : Continues low high [] :=
  trivial

@[simp]
theorem continues_cons (low high : Nat) (b : UInt8) (rest : Bytes) :
    Continues low high (b :: rest) ↔
      (low ≤ b.toNat ∧ b.toNat ≤ high) ∧ Continues 0x80 0xBF rest :=
  Iff.rfl

/-- A beginning of what may follow a lead byte may follow it too. -/
theorem Continues.left {low high : Nat} {tails more : Bytes}
    (h : Continues low high (tails ++ more)) : Continues low high tails := by
  induction tails generalizing low high with
  | nil => exact trivial
  | cons b tails ih => exact ⟨h.1, ih h.2⟩

/-- What may follow a lead byte goes no further than to a byte that does not fit. -/
theorem Continues.length_le {low high : Nat} {tails first more : Bytes} {x : UInt8}
    (h : Continues low high tails) (htails : tails <+: first ++ x :: more)
    (hx : ¬ Continues low high (first ++ [x])) : tails.length ≤ first.length := by
  by_contra hlong
  have hprefix : first ++ [x] <+: tails := by
    refine List.prefix_of_prefix_length_le ⟨more, ?_⟩ htails ?_
    · rw [List.append_assoc, List.singleton_append]
    · rw [List.length_append, List.length_singleton]
      omega
  obtain ⟨others, rfl⟩ := hprefix
  exact hx h.left

/-- Continuation bytes can be added to what may follow a lead byte. -/
theorem Continues.append {low high : Nat} {tails more : Bytes} (hne : tails ≠ [])
    (h : Continues low high tails) (hmore : Continues 0x80 0xBF more) :
    Continues low high (tails ++ more) := by
  induction tails generalizing low high with
  | nil => exact absurd rfl hne
  | cons b tails ih =>
    refine ⟨h.1, ?_⟩
    by_cases htails : tails = []
    · subst htails
      exact hmore
    · exact ih htails h.2

/-- Reading continuation bytes ends with a character, at the end of the bytes, or before the first
byte that does not continue the character. -/
theorem readTails_cases (bits width tails low high : Nat) (rest : Bytes) :
    (∃ first more, rest = first ++ more ∧ first.length = tails ∧ Continues low high first ∧
      readTails bits width tails low high rest =
        .char (Char.ofNat (tailValue bits first)) (width + tails)) ∨
    (rest.length < tails ∧ Continues low high rest ∧
      readTails bits width tails low high rest = .cut) ∨
    (∃ first b more, rest = first ++ b :: more ∧ first.length < tails ∧
      Continues low high first ∧ ¬ Continues low high (first ++ [b]) ∧
      readTails bits width tails low high rest = .broken (width + first.length)) := by
  induction tails generalizing bits width low high rest with
  | zero => exact Or.inl ⟨[], rest, rfl, rfl, trivial, rfl⟩
  | succ tails ih =>
    cases rest with
    | nil => exact Or.inr (Or.inl ⟨Nat.succ_pos tails, trivial, rfl⟩)
    | cons b rest =>
      by_cases hb : low ≤ b.toNat ∧ b.toNat ≤ high
      · have hread : readTails bits width (tails + 1) low high (b :: rest) =
            readTails (addTail bits b) (width + 1) tails 0x80 0xBF rest := by
          unfold addTail
          simp [readTails, hb]
        rcases ih (addTail bits b) (width + 1) 0x80 0xBF rest with
          ⟨first, more, hrest, hlength, hfirst, hchar⟩ | ⟨hlength, hfirst, hcut⟩ |
          ⟨first, x, more, hrest, hlength, hfirst, hx, hbroken⟩
        · refine Or.inl ⟨b :: first, more, by rw [hrest]; rfl, by rw [← hlength]; rfl,
            ⟨hb, hfirst⟩, ?_⟩
          rw [hread, hchar, tailValue_cons, Nat.add_assoc, Nat.add_comm 1 tails]
        · exact Or.inr (Or.inl ⟨Nat.succ_lt_succ hlength, ⟨hb, hfirst⟩, by rw [hread, hcut]⟩)
        · refine Or.inr (Or.inr ⟨b :: first, x, more, by rw [hrest]; rfl,
            Nat.succ_lt_succ hlength, ⟨hb, hfirst⟩, fun h => hx h.2, ?_⟩)
          rw [hread, hbroken, List.length_cons, Nat.add_assoc, Nat.add_comm 1 first.length]
      · refine Or.inr (Or.inr ⟨[], b, rest, rfl, Nat.succ_pos tails, trivial, fun h => hb h.1, ?_⟩)
        simp [readTails, hb]

/-! ## Lead bytes -/

theorem lead?_two {b : UInt8} (hlow : 0xC2 ≤ b.toNat) (hhigh : b.toNat < 0xE0) :
    lead? b = some ⟨b.toNat - 0xC0, 1, 0x80, 0xBF⟩ := by
  unfold lead?
  rw [if_neg (by omega), if_pos hhigh]

theorem lead?_three {b : UInt8} (hlow : 0xE0 ≤ b.toNat) (hhigh : b.toNat < 0xF0) :
    lead? b = some ⟨b.toNat - 0xE0, 2, if b.toNat = 0xE0 then 0xA0 else 0x80,
      if b.toNat = 0xED then 0x9F else 0xBF⟩ := by
  unfold lead?
  rw [if_neg (by omega), if_neg (by omega)]
  by_cases hE0 : b.toNat = 0xE0
  · simp [hE0]
  · by_cases hED : b.toNat = 0xED
    · simp [hED]
    · rw [if_neg hE0, if_neg hED, if_pos hhigh, if_neg hE0, if_neg hED]

theorem lead?_four {b : UInt8} (hlow : 0xF0 ≤ b.toNat) (hhigh : b.toNat ≤ 0xF4) :
    lead? b = some ⟨b.toNat - 0xF0, 3, if b.toNat = 0xF0 then 0x90 else 0x80,
      if b.toNat = 0xF4 then 0x8F else 0xBF⟩ := by
  unfold lead?
  rw [if_neg (by omega), if_neg (by omega), if_neg (by omega), if_neg (by omega),
    if_neg (by omega)]
  by_cases hF0 : b.toNat = 0xF0
  · simp [hF0]
  · by_cases hF4 : b.toNat = 0xF4
    · simp [hF4]
    · rw [if_neg hF0, if_pos (by omega), if_neg hF0, if_neg hF4]

/-- Only these bytes begin a character of two bytes or more. -/
theorem lead?_eq_none {b : UInt8} (h : b.toNat < 0xC2 ∨ 0xF4 < b.toNat) : lead? b = none := by
  unfold lead?
  rcases h with h | h
  · rw [if_pos h]
  · rw [if_neg (by omega), if_neg (by omega), if_neg (by omega), if_neg (by omega),
      if_neg (by omega), if_neg (by omega), if_neg (by omega), if_neg (by omega)]

/-- A lead byte announces one, two or three continuation bytes, by the range it lies in. -/
theorem lead?_cases {b : UInt8} {lead : Lead} (hlead : lead? b = some lead) :
    (0xC2 ≤ b.toNat ∧ b.toNat < 0xE0 ∧ lead = ⟨b.toNat - 0xC0, 1, 0x80, 0xBF⟩) ∨
    (0xE0 ≤ b.toNat ∧ b.toNat < 0xF0 ∧ lead = ⟨b.toNat - 0xE0, 2,
      if b.toNat = 0xE0 then 0xA0 else 0x80, if b.toNat = 0xED then 0x9F else 0xBF⟩) ∨
    (0xF0 ≤ b.toNat ∧ b.toNat ≤ 0xF4 ∧ lead = ⟨b.toNat - 0xF0, 3,
      if b.toNat = 0xF0 then 0x90 else 0x80, if b.toNat = 0xF4 then 0x8F else 0xBF⟩) := by
  have hrange : ¬ (b.toNat < 0xC2 ∨ 0xF4 < b.toNat) := by
    intro hnone
    rw [lead?_eq_none hnone] at hlead
    cases hlead
  rcases Nat.lt_or_ge b.toNat 0xE0 with htwo | hthree
  · rw [lead?_two (by omega) htwo] at hlead
    exact Or.inl ⟨by omega, htwo, (Option.some.inj hlead).symm⟩
  · rcases Nat.lt_or_ge b.toNat 0xF0 with hthree' | hfour
    · rw [lead?_three hthree hthree'] at hlead
      exact Or.inr (Or.inl ⟨hthree, hthree', (Option.some.inj hlead).symm⟩)
    · rw [lead?_four hfour (by omega)] at hlead
      exact Or.inr (Or.inr ⟨hfour, by omega, (Option.some.inj hlead).symm⟩)

/-- The byte of a number below 256 is the one whose number it is. -/
theorem ofNat_eq_of_toNat {n : Nat} {b : UInt8} (h : n = b.toNat) : UInt8.ofNat n = b := by
  rw [h, UInt8.ofNat_toNat]

/-- Every code point has its character. -/
theorem exists_char_toNat {n : Nat} (h : n.isValidChar) : ∃ c : Char, c.toNat = n :=
  ⟨Char.ofNatAux n h, rfl⟩

/-- A lead byte and as many continuation bytes as it announces encode a character. -/
theorem exists_encodeChar_of_lead {b : UInt8} {lead : Lead} {tails : Bytes}
    (hlead : lead? b = some lead) (hlength : tails.length = lead.tails)
    (htails : Continues lead.low lead.high tails) :
    ∃ c : Char, c.toNat = tailValue lead.bits tails ∧ encodeChar c = b :: tails := by
  rcases lead?_cases hlead with ⟨hlow, hhigh, rfl⟩ | ⟨hlow, hhigh, rfl⟩ | ⟨hlow, hhigh, rfl⟩
  · obtain ⟨x, rfl⟩ := List.length_eq_one_iff.mp hlength
    obtain ⟨⟨hxlow, hxhigh⟩, -⟩ := htails
    dsimp only at hxlow hxhigh
    obtain ⟨c, hc⟩ := exists_char_toNat (n := (b.toNat - 0xC0) * 64 + (x.toNat - 0x80))
      (Or.inl (by omega))
    refine ⟨c, hc, ?_⟩
    unfold encodeChar tailByte
    rw [if_neg (by omega), if_pos (by omega), ofNat_eq_of_toNat (b := b) (by omega),
      ofNat_eq_of_toNat (b := x) (by omega)]
  · obtain ⟨x, y, rfl⟩ := List.length_eq_two.mp hlength
    obtain ⟨⟨hxlow, hxhigh⟩, ⟨hylow, hyhigh⟩, -⟩ := htails
    dsimp only at hxlow hxhigh
    obtain ⟨c, hc⟩ := exists_char_toNat
      (n := ((b.toNat - 0xE0) * 64 + (x.toNat - 0x80)) * 64 + (y.toNat - 0x80))
      (by unfold Nat.isValidChar; split_ifs at hxlow hxhigh <;> omega)
    refine ⟨c, hc, ?_⟩
    unfold encodeChar tailByte
    split_ifs at hxlow hxhigh <;>
    rw [if_neg (by omega), if_neg (by omega), if_pos (by omega),
      ofNat_eq_of_toNat (b := b) (by omega), ofNat_eq_of_toNat (b := x) (by omega),
      ofNat_eq_of_toNat (b := y) (by omega)]
  · obtain ⟨x, y, z, rfl⟩ := List.length_eq_three.mp hlength
    obtain ⟨⟨hxlow, hxhigh⟩, ⟨hylow, hyhigh⟩, ⟨hzlow, hzhigh⟩, -⟩ := htails
    dsimp only at hxlow hxhigh
    obtain ⟨c, hc⟩ := exists_char_toNat
      (n := (((b.toNat - 0xF0) * 64 + (x.toNat - 0x80)) * 64 + (y.toNat - 0x80)) * 64 +
        (z.toNat - 0x80))
      (Or.inr (by split_ifs at hxlow hxhigh <;> omega))
    refine ⟨c, hc, ?_⟩
    unfold encodeChar tailByte
    split_ifs at hxlow hxhigh <;>
    rw [if_neg (by omega), if_neg (by omega), if_neg (by omega),
      ofNat_eq_of_toNat (b := b) (by omega), ofNat_eq_of_toNat (b := x) (by omega),
      ofNat_eq_of_toNat (b := y) (by omega), ofNat_eq_of_toNat (b := z) (by omega)]

/-- The number of a byte below 256. -/
theorem toNat_ofNat_of_lt {n : Nat} (h : n < 256) : (UInt8.ofNat n).toNat = n := by
  rw [UInt8.toNat_ofNat', Nat.mod_eq_of_lt h]

/-- The number of a continuation byte. -/
theorem toNat_tailByte (n : Nat) : (tailByte n).toNat = 0x80 + n % 64 :=
  toNat_ofNat_of_lt (by omega)

/-- A character is encoded by itself as one byte, or by a lead byte and the continuation bytes it
announces, which together make up its number. -/
theorem encodeChar_cases (c : Char) :
    (c.toNat < 0x80 ∧ encodeChar c = [UInt8.ofNat c.toNat]) ∨
      ∃ b tails lead, encodeChar c = b :: tails ∧ lead? b = some lead ∧
        tails.length = lead.tails ∧ Continues lead.low lead.high tails ∧
        tailValue lead.bits tails = c.toNat := by
  have hvalid : c.toNat.isValidChar := c.valid
  unfold Nat.isValidChar at hvalid
  rcases Nat.lt_or_ge c.toNat 0x80 with hone | hone
  · exact Or.inl ⟨hone, by unfold encodeChar; rw [if_pos hone]⟩
  right
  rcases Nat.lt_or_ge c.toNat 0x800 with htwo | htwo
  · have hb : (UInt8.ofNat (0xC0 + c.toNat / 64)).toNat = 0xC0 + c.toNat / 64 :=
      toNat_ofNat_of_lt (by omega)
    refine ⟨UInt8.ofNat (0xC0 + c.toNat / 64), [tailByte c.toNat], _, ?_,
      lead?_two (by omega) (by omega), rfl, ?_, ?_⟩
    · unfold encodeChar
      rw [if_neg (by omega), if_pos htwo]
    · simp only [continues_cons, toNat_tailByte, continues_nil, and_true]
      omega
    · simp only [tailValue_cons, tailValue_nil, addTail_eq, toNat_tailByte, hb]
      omega
  rcases Nat.lt_or_ge c.toNat 0x10000 with hthree | hthree
  · have hb : (UInt8.ofNat (0xE0 + c.toNat / 4096)).toNat = 0xE0 + c.toNat / 4096 :=
      toNat_ofNat_of_lt (by omega)
    refine ⟨UInt8.ofNat (0xE0 + c.toNat / 4096), [tailByte (c.toNat / 64), tailByte c.toNat], _, ?_,
      lead?_three (by omega) (by omega), rfl, ?_, ?_⟩
    · unfold encodeChar
      rw [if_neg (by omega), if_neg (by omega), if_pos hthree]
    · simp only [continues_cons, toNat_tailByte, continues_nil, and_true, hb]
      split_ifs <;> omega
    · simp only [tailValue_cons, tailValue_nil, addTail_eq, toNat_tailByte, hb]
      omega
  · have hb : (UInt8.ofNat (0xF0 + c.toNat / 262144)).toNat = 0xF0 + c.toNat / 262144 :=
      toNat_ofNat_of_lt (by omega)
    refine ⟨UInt8.ofNat (0xF0 + c.toNat / 262144),
      [tailByte (c.toNat / 4096), tailByte (c.toNat / 64), tailByte c.toNat], _, ?_,
      lead?_four (by omega) (by omega), rfl, ?_, ?_⟩
    · unfold encodeChar
      rw [if_neg (by omega), if_neg (by omega), if_neg (by omega)]
    · simp only [continues_cons, toNat_tailByte, continues_nil, and_true, hb]
      split_ifs <;> omega
    · simp only [tailValue_cons, tailValue_nil, addTail_eq, toNat_tailByte, hb]
      omega

/-- The bytes of a character by their first byte. -/
theorem exists_encodeChar_eq_cons_iff {b : UInt8} {tails : Bytes} :
    (∃ c, encodeChar c = b :: tails) ↔ (b.toNat < 0x80 ∧ tails = []) ∨
      ∃ lead, lead? b = some lead ∧ tails.length = lead.tails ∧
        Continues lead.low lead.high tails := by
  constructor
  · rintro ⟨c, hc⟩
    rcases encodeChar_cases c with ⟨hone, henc⟩ |
      ⟨b', tails', lead, henc, hlead, hlength, htails, -⟩
    · rw [henc] at hc
      injection hc with hb hnil
      exact Or.inl ⟨by rw [← hb, toNat_ofNat_of_lt (by omega)]; exact hone, hnil.symm⟩
    · rw [henc] at hc
      injection hc with hb htails'
      subst hb htails'
      exact Or.inr ⟨lead, hlead, hlength, htails⟩
  · rintro (⟨hb, rfl⟩ | ⟨lead, hlead, hlength, htails⟩)
    · obtain ⟨c, hc⟩ := exists_char_toNat (n := b.toNat) (Or.inl (by omega))
      refine ⟨c, ?_⟩
      unfold encodeChar
      rw [if_pos (by omega), ofNat_eq_of_toNat hc]
    · obtain ⟨c, -, hc⟩ := exists_encodeChar_of_lead hlead hlength htails
      exact ⟨c, hc⟩

/-- No character has an empty encoding. -/
theorem encodeChar_ne_nil (c : Char) : encodeChar c ≠ [] := by
  rcases encodeChar_cases c with ⟨-, henc⟩ | ⟨b, tails, lead, henc, -⟩
  · rw [henc]
    exact List.cons_ne_nil _ _
  · rw [henc]
    exact List.cons_ne_nil _ _

/-! ## Beginnings of characters -/

/-- Bytes that begin the encoding of a character, which goes on behind them. -/
def BeginsChar (bytes : Bytes) : Prop :=
  ∃ c : Char, bytes <+: encodeChar c ∧ bytes ≠ encodeChar c

/-- What a lead byte announces is at least one continuation byte and at most three, in a range that
is not empty. -/
theorem lead?_bounds {b : UInt8} {lead : Lead} (hlead : lead? b = some lead) :
    1 ≤ lead.tails ∧ lead.tails ≤ 3 ∧ 0x80 ≤ lead.low ∧ lead.low ≤ lead.high ∧
      lead.high ≤ 0xBF := by
  rcases lead?_cases hlead with ⟨-, -, rfl⟩ | ⟨-, -, rfl⟩ | ⟨-, -, rfl⟩
  · dsimp only
    omega
  · dsimp only
    split_ifs <;> omega
  · dsimp only
    split_ifs <;> omega

/-- Any number of the lowest continuation byte continues a character. -/
theorem continues_replicate (n : Nat) : Continues 0x80 0xBF (List.replicate n 0x80) := by
  induction n with
  | zero => exact trivial
  | succ n ih => exact ⟨by decide, ih⟩

/-- What continues a character so far can be completed. -/
theorem Continues.complete {low high n : Nat} {tails : Bytes} (hrange : low ≤ high)
    (hhigh : high ≤ 0xBF) (h : Continues low high tails) (hlength : tails.length ≤ n) :
    ∃ more, (tails ++ more).length = n ∧ Continues low high (tails ++ more) := by
  by_cases htails : tails = []
  · subst htails
    cases n with
    | zero => exact ⟨[], rfl, trivial⟩
    | succ n =>
      refine ⟨UInt8.ofNat low :: List.replicate n 0x80, by simp, ?_, continues_replicate n⟩
      rw [toNat_ofNat_of_lt (by omega)]
      exact ⟨Nat.le_refl low, hrange⟩
  · refine ⟨List.replicate (n - tails.length) 0x80, ?_, h.append htails (continues_replicate _)⟩
    rw [List.length_append, List.length_replicate]
    omega

/-- The beginning of a character is a lead byte with fewer continuation bytes than it announces. -/
theorem beginsChar_cons_iff {b : UInt8} {tails : Bytes} :
    BeginsChar (b :: tails) ↔ ∃ lead, lead? b = some lead ∧ tails.length < lead.tails ∧
      Continues lead.low lead.high tails := by
  constructor
  · rintro ⟨c, ⟨more, hmore⟩, hne⟩
    have hc : ∃ c, encodeChar c = b :: (tails ++ more) := ⟨c, hmore.symm⟩
    have hmore' : more ≠ [] := by
      rintro rfl
      exact hne (by rw [← hmore, List.append_nil])
    have hpos : 0 < more.length := List.length_pos_iff.mpr hmore'
    rcases exists_encodeChar_eq_cons_iff.mp hc with ⟨-, hnil⟩ | ⟨lead, hlead, hlength, htails⟩
    · exact absurd (List.append_eq_nil_iff.mp hnil).2 hmore'
    · rw [List.length_append] at hlength
      exact ⟨lead, hlead, by omega, htails.left⟩
  · rintro ⟨lead, hlead, hlength, htails⟩
    obtain ⟨-, -, -, hrange, hhigh⟩ := lead?_bounds hlead
    obtain ⟨more, hlength', hmore⟩ := htails.complete hrange hhigh (Nat.le_of_lt hlength)
    obtain ⟨c, hc⟩ := exists_encodeChar_eq_cons_iff.mpr (Or.inr ⟨lead, hlead, hlength', hmore⟩)
    refine ⟨c, ⟨more, hc.symm⟩, ?_⟩
    intro heq
    rw [hc, List.cons.injEq] at heq
    have := congrArg List.length heq.2
    omega

/-- What may begin a character behind a lead byte. -/
theorem beginsChar_cons_iff_of_lead? {b : UInt8} {lead : Lead} {tails : Bytes}
    (hlead : lead? b = some lead) :
    BeginsChar (b :: tails) ↔ tails.length < lead.tails ∧ Continues lead.low lead.high tails := by
  simp [beginsChar_cons_iff, hlead]

/-- A byte that is no lead byte begins no character that goes on. -/
theorem not_beginsChar_cons {b : UInt8} (hlead : lead? b = none) (tails : Bytes) :
    ¬ BeginsChar (b :: tails) := by
  simp [beginsChar_cons_iff, hlead]

/-- The beginning of a character that goes on has at most three bytes. -/
theorem BeginsChar.length_le {bytes : Bytes} (h : BeginsChar bytes) : bytes.length ≤ 3 := by
  cases bytes with
  | nil => exact Nat.zero_le 3
  | cons b tails =>
    obtain ⟨lead, hlead, hlength, -⟩ := beginsChar_cons_iff.mp h
    have := (lead?_bounds hlead).2.1
    rw [List.length_cons]
    omega

/-- Two encodings that begin the same bytes encode the same character. -/
theorem encodeChar_prefix_unique {c d : Char} {bytes : Bytes} (hc : encodeChar c <+: bytes)
    (hd : encodeChar d <+: bytes) : c = d := by
  have hnumber : c.toNat = d.toNat := by
    rcases encodeChar_cases c with ⟨hc1, hcenc⟩ | ⟨b, tails, lead, hcenc, hlead, hlen, -, hcval⟩ <;>
    rcases encodeChar_cases d with ⟨hd1, hdenc⟩ |
    ⟨b', tails', lead', hdenc, hlead', hlen', -, hdval⟩ <;>
    rw [hcenc] at hc <;> rw [hdenc] at hd
    · obtain ⟨x, rfl⟩ := hc
      obtain ⟨y, hy⟩ := hd
      have hb := (List.cons.inj hy).1
      rw [← toNat_ofNat_of_lt (n := c.toNat) (by omega), ← hb,
        toNat_ofNat_of_lt (by omega)]
    · obtain ⟨x, rfl⟩ := hc
      obtain ⟨y, hy⟩ := hd
      have hb := (List.cons.inj hy).1
      rw [hb, lead?_eq_none (Or.inl (by rw [toNat_ofNat_of_lt] <;> omega))] at hlead'
      exact absurd hlead' (by simp)
    · obtain ⟨x, rfl⟩ := hc
      obtain ⟨y, hy⟩ := hd
      have hb := (List.cons.inj hy).1
      rw [← hb, lead?_eq_none (Or.inl (by rw [toNat_ofNat_of_lt] <;> omega))] at hlead
      exact absurd hlead (by simp)
    · obtain ⟨x, rfl⟩ := hc
      obtain ⟨y, hy⟩ := hd
      obtain ⟨hb, htails⟩ := List.cons.inj hy
      rw [hb, hlead] at hlead'
      obtain rfl := Option.some.inj hlead'
      have heq : tails' = tails := (List.append_inj htails (by omega)).1
      rw [← hcval, ← hdval, heq]
  rw [← Char.ofNat_toNat c, hnumber, Char.ofNat_toNat]

/-- Bytes that begin with the encoding of a character are not the beginning of a longer one. -/
theorem not_beginsChar_of_prefix_encodeChar {c : Char} {bytes : Bytes}
    (hc : encodeChar c <+: bytes) : ¬ BeginsChar bytes := by
  rintro ⟨d, hd, hne⟩
  have hcd : c = d := encodeChar_prefix_unique (hc.trans hd) (List.prefix_refl _)
  subst hcd
  exact hne (hd.eq_of_length_le hc.length_le)

/-! ## Reading -/

/--
A piece of ill-formed bytes with `rest` behind it is a maximal subpart when no
character begins there and it is the longest beginning of a character, or, where
there is none, a single byte.
-/
structure MaximalSubpart (piece rest : Bytes) : Prop where
  not_encodeChar : ∀ c, ¬ encodeChar c <+: piece ++ rest
  initial : piece.length = 1 ∨ (piece ≠ [] ∧ BeginsChar piece)
  longest : ∀ longer, longer <+: piece ++ rest → BeginsChar longer → longer.length ≤ piece.length

/-- Bytes that go on behind a maximal subpart are not the beginning of a character. -/
theorem MaximalSubpart.not_beginsChar {piece rest : Bytes} (h : MaximalSubpart piece rest)
    (hrest : rest ≠ []) : ¬ BeginsChar (piece ++ rest) := by
  intro hbegins
  have hlength := h.longest _ (List.prefix_refl _) hbegins
  have hpos := List.length_pos_iff.mpr hrest
  rw [List.length_append] at hlength
  omega

/-- A character whose encoding begins some bytes. -/
theorem encodeChar_prefix_cons {c : Char} {b : UInt8} {rest : Bytes}
    (h : encodeChar c <+: b :: rest) : ∃ tails, encodeChar c = b :: tails ∧ tails <+: rest :=
  (List.prefix_cons_iff.mp h).resolve_left (encodeChar_ne_nil c)

/-- A byte that begins no character is a maximal subpart by itself. -/
theorem maximalSubpart_of_lead?_eq_none {b : UInt8} (hone : ¬ b.toNat < 0x80)
    (hlead : lead? b = none) (rest : Bytes) : MaximalSubpart [b] rest := by
  constructor
  case not_encodeChar =>
    intro c hc
    obtain ⟨tails, henc, -⟩ := encodeChar_prefix_cons hc
    rcases exists_encodeChar_eq_cons_iff.mp ⟨c, henc⟩ with ⟨hb, -⟩ | ⟨lead, hlead', -⟩
    · exact hone hb
    · cases hlead.symm.trans hlead'
  case initial => exact Or.inl rfl
  case longest =>
    intro longer hlonger hbegins
    rcases List.prefix_cons_iff.mp hlonger with rfl | ⟨tails, rfl, -⟩
    · exact Nat.zero_le _
    · exact absurd hbegins (not_beginsChar_cons hlead tails)

/-- A lead byte and the continuation bytes behind it, up to a byte that does not fit. -/
theorem maximalSubpart_of_lead {b x : UInt8} {lead : Lead} {first : Bytes}
    (hone : ¬ b.toNat < 0x80) (hlead : lead? b = some lead) (hlength : first.length < lead.tails)
    (hfirst : Continues lead.low lead.high first)
    (hx : ¬ Continues lead.low lead.high (first ++ [x])) (more : Bytes) :
    MaximalSubpart (b :: first) (x :: more) := by
  constructor
  case not_encodeChar =>
    intro c hc
    obtain ⟨tails, henc, htails⟩ := encodeChar_prefix_cons hc
    rcases exists_encodeChar_eq_cons_iff.mp ⟨c, henc⟩ with
      ⟨hb, -⟩ | ⟨lead', hlead', hall, hcontinues⟩
    · exact hone hb
    · obtain rfl := Option.some.inj (hlead.symm.trans hlead')
      have hshort := hcontinues.length_le htails hx
      omega
  case initial =>
    exact Or.inr ⟨List.cons_ne_nil _ _,
      (beginsChar_cons_iff_of_lead? hlead).mpr ⟨hlength, hfirst⟩⟩
  case longest =>
    intro longer hlonger hbegins
    rcases List.prefix_cons_iff.mp hlonger with rfl | ⟨tails, rfl, htails⟩
    · exact Nat.zero_le _
    · have hcontinues := ((beginsChar_cons_iff_of_lead? hlead).mp hbegins).2
      exact Nat.succ_le_succ (hcontinues.length_le htails hx)

/-- Reading a character finds the encoding of one, bytes that end inside one, or a maximal
subpart of bytes that begin none. -/
theorem read_cases (b : UInt8) (rest : Bytes) :
    (∃ c more, b :: rest = encodeChar c ++ more ∧ read b rest = .char c (encodeChar c).length) ∨
    (BeginsChar (b :: rest) ∧ read b rest = .cut) ∨
    (¬ BeginsChar (b :: rest) ∧ ∃ piece more, b :: rest = piece ++ more ∧
      MaximalSubpart piece more ∧ read b rest = .broken piece.length) := by
  by_cases hone : b.toNat < 0x80
  · obtain ⟨c, hc⟩ := exists_char_toNat (n := b.toNat) (Or.inl (by omega))
    have henc : encodeChar c = [b] := by
      unfold encodeChar
      rw [if_pos (by omega), ofNat_eq_of_toNat hc]
    refine Or.inl ⟨c, rest, by rw [henc]; rfl, ?_⟩
    unfold read
    rw [if_pos hone, henc, ← hc, Char.ofNat_toNat]
    rfl
  cases hlead : lead? b with
  | none =>
    refine Or.inr (Or.inr ⟨not_beginsChar_cons hlead rest, [b], rest, rfl,
      maximalSubpart_of_lead?_eq_none hone hlead rest, ?_⟩)
    unfold read
    rw [if_neg hone, hlead]
    rfl
  | some lead =>
    have hread : read b rest = readTails lead.bits 1 lead.tails lead.low lead.high rest := by
      unfold read
      rw [if_neg hone, hlead]
    rcases readTails_cases lead.bits 1 lead.tails lead.low lead.high rest with
      ⟨first, more, rfl, hlength, hfirst, hchar⟩ | ⟨hlength, hfirst, hcut⟩ |
      ⟨first, x, more, rfl, hlength, hfirst, hx, hbroken⟩
    · obtain ⟨c, hc, henc⟩ := exists_encodeChar_of_lead hlead hlength hfirst
      refine Or.inl ⟨c, more, by rw [henc]; rfl, ?_⟩
      rw [hread, hchar, ← hc, Char.ofNat_toNat, henc, List.length_cons, hlength, Nat.add_comm]
    · exact Or.inr (Or.inl ⟨(beginsChar_cons_iff_of_lead? hlead).mpr ⟨hlength, hfirst⟩,
        by rw [hread, hcut]⟩)
    · have hmaximal := maximalSubpart_of_lead hone hlead hlength hfirst hx more
      refine Or.inr (Or.inr ⟨hmaximal.not_beginsChar (List.cons_ne_nil x more), b :: first,
        x :: more, rfl, hmaximal, ?_⟩)
      rw [hread, hbroken, List.length_cons, Nat.add_comm]

end Utf8

end ScratchEditor

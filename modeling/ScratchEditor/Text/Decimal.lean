import ScratchEditor.Text.Basic

/-!
# Decimal counts

Rows, columns and sizes are counts below 2^64, written in decimal.  Reading one
accepts a leading plus sign and leading zeros and names the reason when it
fails; writing one gives the shortest decimal.

Main definitions:

- `CountError`: why a text is not a count.
- `readCount`: the count a text stands for.
- `decimal`: the decimal text of a number.
-/

namespace ScratchEditor

/-- The first number too large to be a count. -/
def countLimit : Nat :=
  18446744073709551616

/-- Why a text is not a count. -/
inductive CountError
  /-- There is nothing to read. -/
  | empty
  /-- A character is not a digit. -/
  | notADigit
  /-- The digits read so far reach 2^64. -/
  | tooLarge
deriving DecidableEq

/-- How the cause is worded in a message. -/
def CountError.message : CountError → String
  | .empty => "cannot parse integer from empty string"
  | .notADigit => "invalid digit found in string"
  | .tooLarge => "number too large to fit in target type"

/-- The value of an ASCII digit. -/
def digitValue? (c : Char) : Option Nat :=
  if c.isDigit then some (c.toNat - '0'.toNat) else none

/-- Reads digits onto the value of those before them, from the left. -/
def readDigits : Nat → Text → Except CountError Nat
  | value, [] => .ok value
  | value, c :: rest =>
    match digitValue? c with
    | none => .error .notADigit
    | some digit =>
      let next := value * 10 + digit
      if next < countLimit then readDigits next rest else .error .tooLarge

/-- Reads a count: digits after at most one plus sign. -/
def readCount (text : Text) : Except CountError Nat :=
  match text with
  | [] => .error .empty
  | ['+'] => .error .notADigit
  | '+' :: digits => readDigits 0 digits
  | digits => readDigits 0 digits

/-- The decimal text of a number. -/
def decimal (n : Nat) : Text :=
  Nat.toDigits 10 n

/-- The decimal text of an integer. -/
def decimalInt : Int → Text
  | .ofNat n => decimal n
  | .negSucc n => '-' :: decimal (n + 1)

/-- The digits are the ten characters from zero on. -/
theorem toNat_of_isDigit {c : Char} (h : c.isDigit = true) : 48 ≤ c.toNat ∧ c.toNat < 58 := by
  have hzero : '0'.toNat = 48 := rfl
  have hnine : '9'.toNat = 57 := rfl
  rw [Char.isDigit_iff_toNat] at h
  omega

/-- Reading more digits makes a number no smaller. -/
theorem le_ofDigitChars (value : Nat) (digits : Text) :
    value ≤ Nat.ofDigitChars 10 digits value := by
  induction digits generalizing value with
  | nil => exact Nat.le_refl value
  | cons c digits ih =>
    rw [Nat.ofDigitChars_cons]
    exact Nat.le_trans (by omega) (ih _)

/-- Digits are read as the number they stand for, if this is a count. -/
theorem readDigits_eq_ok_iff {digits : Text} (hdigits : ∀ c ∈ digits, c.isDigit = true)
    {value n : Nat} (hvalue : value < countLimit) :
    readDigits value digits = .ok n ↔
      Nat.ofDigitChars 10 digits value = n ∧ n < countLimit := by
  induction digits generalizing value with
  | nil =>
    rw [readDigits, Nat.ofDigitChars_nil, Except.ok.injEq]
    exact ⟨fun h => ⟨h, h ▸ hvalue⟩, And.left⟩
  | cons c digits ih =>
    have hdigit : digitValue? c = some (c.toNat - '0'.toNat) :=
      if_pos (hdigits c List.mem_cons_self)
    rw [readDigits, hdigit, Nat.ofDigitChars_cons, Nat.mul_comm 10 value]
    dsimp only
    by_cases hnext : value * 10 + (c.toNat - '0'.toNat) < countLimit
    · rw [if_pos hnext]
      exact ih (fun d hd => hdigits d (List.mem_cons_of_mem c hd)) hnext
    · rw [if_neg hnext]
      have hle := le_ofDigitChars (value * 10 + (c.toNat - '0'.toNat)) digits
      constructor
      · intro h
        cases h
      · rintro ⟨rfl, hlt⟩
        exact absurd (Nat.lt_of_le_of_lt hle hlt) hnext

/-- A count without a plus sign is read as its digits are. -/
theorem readCount_of_digits {digits : Text} (hne : digits ≠ [])
    (hdigits : ∀ c ∈ digits, c.isDigit = true) : readCount digits = readDigits 0 digits := by
  unfold readCount
  split
  · exact absurd rfl hne
  · cases hdigits '+' List.mem_cons_self
  · cases hdigits '+' List.mem_cons_self
  · rfl

/-! ## What is written -/

theorem decimal_ne_nil (n : Nat) : decimal n ≠ [] :=
  Nat.toDigits_ne_nil

/-- Numbers are written with digits alone. -/
theorem isDigit_of_mem_decimal (n : Nat) : ∀ c ∈ decimal n, c.isDigit = true := fun _ hc =>
  Nat.isDigit_of_mem_toDigits (by decide) (by decide) hc

/-- Every number is written with a first digit. -/
theorem exists_decimal_eq_cons (n : Nat) :
    ∃ c digits, decimal n = c :: digits ∧ c.isDigit = true := by
  cases h : decimal n with
  | nil => exact absurd h (decimal_ne_nil n)
  | cons c digits =>
    exact ⟨c, digits, rfl, isDigit_of_mem_decimal n c (by rw [h]; exact List.mem_cons_self)⟩

/-- Only zero is written with a zero in front. -/
theorem eq_zero_of_decimal {n : Nat} {rest : Text} (h : decimal n = '0' :: rest) : n = 0 := by
  induction n using Nat.strongRecOn generalizing rest with
  | ind n ih =>
    by_cases hone : n < 10
    · rw [decimal, Nat.toDigits_of_lt_base hone, List.cons.injEq] at h
      exact Nat.digitChar_eq_zero.mp h.1
    · have hsplit : decimal n = decimal (n / 10) ++ [(n % 10).digitChar] :=
        Nat.toDigits_of_base_le (by decide) (Nat.le_of_not_lt hone)
      obtain ⟨c, digits, hfirst, -⟩ := exists_decimal_eq_cons (n / 10)
      rw [hsplit, hfirst, List.cons_append, List.cons.injEq] at h
      rw [h.1] at hfirst
      have hzero := ih (n / 10) (by omega) hfirst
      omega

/-- The digits of a number have its value. -/
theorem ofDigitChars_decimal (n : Nat) : Nat.ofDigitChars 10 (decimal n) 0 = n :=
  Nat.ofDigitChars_toDigits (by decide) (by decide)

/-- A count is read back from its digits. -/
theorem readDigits_decimal {n : Nat} (h : n < countLimit) : readDigits 0 (decimal n) = .ok n := by
  rw [readDigits_eq_ok_iff (isDigit_of_mem_decimal n) (by decide)]
  exact ⟨ofDigitChars_decimal n, h⟩

end ScratchEditor

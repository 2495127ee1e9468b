import Mathlib

/-!
Numbers in the text of a C program: `strtoul` with base 0 and `atoi`. A text is
followed by the end of the string.
-/

namespace RProxy.Numeral

def isOctal (letter : Char) : Bool := '0' ≤ letter && letter ≤ '7'

def isHex (letter : Char) : Bool :=
  letter.isDigit || ('a' ≤ letter && letter ≤ 'f') || ('A' ≤ letter && letter ≤ 'F')

/-- `isspace` of the C locale. -/
def isSpace (letter : Char) : Bool :=
  letter == ' ' || ('\x09' ≤ letter && letter ≤ '\x0d')

def digitValue (letter : Char) : Nat :=
  if letter.isDigit then letter.toNat - '0'.toNat else letter.toLower.toNat - 'a'.toNat + 10

def value (base : Nat) (digits : List Char) : Nat :=
  digits.foldl (fun sofar letter => base * sofar + digitValue letter) 0

/-- The number at the beginning of a text that begins with a digit, and the text
behind it. The prefix tells the base. -/
def strtoul : List Char → Nat × List Char
  | '0' :: mark :: rest =>
      if (mark = 'x' ∨ mark = 'X') ∧ rest.head?.any isHex = true then
        (value 16 (rest.takeWhile isHex), rest.dropWhile isHex)
      else (value 8 ((mark :: rest).takeWhile isOctal), (mark :: rest).dropWhile isOctal)
  | text => (value 10 (text.takeWhile Char.isDigit), text.dropWhile Char.isDigit)

/-- Whether a number is negative, and its text without the sign. -/
def sign : List Char → Bool × List Char
  | '-' :: rest => (true, rest)
  | '+' :: rest => (false, rest)
  | text => (false, text)

/-- `none` where the number is not an `int`, which the language leaves undefined. -/
def atoi (text : List Char) : Option Int :=
  let (negative, text) := sign (text.dropWhile isSpace)
  let number : Int := value 10 (text.takeWhile Char.isDigit)
  let number := if negative then -number else number
  if -2 ^ 31 ≤ number ∧ number < 2 ^ 31 then some number else none

theorem value_decimal {digits : List Char} (decimal : ∀ digit ∈ digits, digit.isDigit = true) :
    value 10 digits = Nat.ofDigitChars 10 digits 0 := by
  rw [Nat.ofDigitChars_eq_foldl, value]
  apply List.foldl_ext
  intro sofar digit member
  rw [digitValue, if_pos (decimal digit member)]

theorem isDigit_of_mem {n : Nat} : ∀ digit ∈ Nat.toDigits 10 n, digit.isDigit = true :=
  fun _ member => Nat.isDigit_of_mem_toDigits (by decide) (by decide) member

theorem value_toDigits (n : Nat) : value 10 (Nat.toDigits 10 n) = n := by
  rw [value_decimal isDigit_of_mem, Nat.ofDigitChars_ten_toDigits]

theorem takeWhile_append {digits rest : List Char} {accepts : Char → Bool}
    (all : ∀ digit ∈ digits, accepts digit = true) (ends : rest.head?.any accepts = false) :
    (digits ++ rest).takeWhile accepts = digits ∧ (digits ++ rest).dropWhile accepts = rest := by
  rw [List.takeWhile_append_of_pos all, List.dropWhile_append_of_pos all]
  cases rest with
  | nil => simp
  | cons first rest =>
      have stops : accepts first = false := by simpa using ends
      simp [stops]

/-- Only 0 is written with a leading 0. -/
theorem head_toDigits {n : Nat} (positive : 0 < n) :
    ∃ first rest, Nat.toDigits 10 n = first :: rest ∧ first ≠ '0' := by
  induction n using Nat.strongRecOn with
  | ind n ih =>
      by_cases small : n < 10
      · refine ⟨n.digitChar, [], Nat.toDigits_of_lt_base small, ?_⟩
        interval_cases n <;> decide
      · obtain ⟨first, rest, split, other⟩ := ih (n / 10) (by omega) (by omega)
        rw [Nat.toDigits_of_base_le (by decide) (by omega), split]
        exact ⟨first, rest ++ [(n % 10).digitChar], rfl, other⟩

/-- A text that ends a decimal number. -/
def Ends (rest : List Char) : Prop :=
  rest.head?.any Char.isDigit = false ∧ rest.head? ≠ some 'x' ∧ rest.head? ≠ some 'X'

theorem isDigit_of_isOctal {letter : Char} (octal : isOctal letter = true) :
    letter.isDigit = true := by
  simp only [isOctal, Bool.and_eq_true, decide_eq_true_eq, Char.le_def,
    UInt32.le_iff_toNat_le] at octal
  simp only [Char.isDigit, ge_iff_le, Bool.and_eq_true, decide_eq_true_eq, UInt32.le_iff_toNat_le]
  exact ⟨octal.1, octal.2.trans (by decide)⟩

/-- A number that was printed is read back, in base 10 although the text may say
otherwise: the leading 0 of the number 0 is also the number in base 8. -/
theorem strtoul_toDigits (n : Nat) {rest : List Char} (ends : Ends rest) :
    strtoul (Nat.toDigits 10 n ++ rest) = (n, rest) := by
  obtain ⟨digit, lower, upper⟩ := ends
  rcases Nat.eq_zero_or_pos n with rfl | positive
  · rw [Nat.toDigits_zero]
    cases rest with
    | nil => rfl
    | cons first rest =>
        have plain : ¬ ((first = 'x' ∨ first = 'X') ∧ rest.head?.any isHex = true) := by
          rintro ⟨rfl | rfl, _⟩
          · exact lower rfl
          · exact upper rfl
        have stops : isOctal first = false := by
          cases octal : isOctal first with
          | false => rfl
          | true => simp [isDigit_of_isOctal octal] at digit
        simp [strtoul, plain, stops, value]
  · obtain ⟨first, tail, split, other⟩ := head_toDigits positive
    obtain ⟨taken, left⟩ := takeWhile_append isDigit_of_mem digit
    have decimal : strtoul (Nat.toDigits 10 n ++ rest) =
        (value 10 ((Nat.toDigits 10 n ++ rest).takeWhile Char.isDigit),
          (Nat.toDigits 10 n ++ rest).dropWhile Char.isDigit) := by
      rw [split, List.cons_append]
      unfold strtoul
      split
      · next same => exact absurd (List.cons.inj same).1 other
      · rfl
    rw [decimal, taken, left, value_toDigits]

theorem isSpace_of_isDigit {letter : Char} (digit : letter.isDigit = true) :
    isSpace letter = false := by
  simp only [Char.isDigit, ge_iff_le, Bool.and_eq_true, decide_eq_true_eq,
    UInt32.le_iff_toNat_le] at digit
  have low : 48 ≤ letter.val.toNat := digit.1
  have other : letter ≠ ' ' := by
    rintro rfl
    exact absurd low (by decide)
  have past : ¬ letter ≤ '\x0d' := by
    rw [Char.le_def, UInt32.le_iff_toNat_le]
    intro below
    have bound : letter.val.toNat ≤ 13 := below
    omega
  simp [isSpace, other, past]

/-- A text of digits that is not too long has its decimal value. -/
theorem atoi_digits {digits : List Char} (decimal : ∀ digit ∈ digits, digit.isDigit = true)
    (fits : value 10 digits < 2 ^ 31) : atoi digits = some (value 10 digits : Int) := by
  have unspaced : digits.dropWhile isSpace = digits := by
    cases digits with
    | nil => rfl
    | cons first rest =>
        rw [List.dropWhile_cons_of_neg]
        simp [isSpace_of_isDigit (decimal first List.mem_cons_self)]
  have unsigned : sign digits = (false, digits) := by
    unfold sign
    split
    · exact absurd (decimal '-' List.mem_cons_self) (by decide)
    · exact absurd (decimal '+' List.mem_cons_self) (by decide)
    · rfl
  have all : digits.takeWhile Char.isDigit = digits := List.takeWhile_eq_self_iff.mpr decimal
  simp only [atoi, unspaced, unsigned, all, Bool.false_eq_true, ↓reduceIte]
  rw [if_pos]
  omega

end RProxy.Numeral

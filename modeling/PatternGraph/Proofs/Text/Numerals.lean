/-
This file says which texts are numerals: an optional plus sign and at least one ASCII digit. The
value is that of the decimal notation, in which each digit counts ten times what the one after it
counts, so leading zeros add nothing. Reading a numeral goes the other way, from the first digit on;
that it comes to the same value, and to none for any other text, is what makes a bound of a
quantifier and the number in a back-reference a matter of their text alone.
-/

import Mathlib.Data.Nat.Digits.Defs
import PatternGraph.Text.Numeral

namespace PatternGraph.Text

/-- What an ASCII digit counts in the last place. -/
def digitValue (digit : Char) : Nat := digit.toNat - '0'.toNat

/-- The value of a row of digits in decimal notation, the last digit counting once. -/
def decimalValue (digits : List Char) : Nat := Nat.ofDigits 10 (digits.reverse.map digitValue)

/-- One or more ASCII digits of the value. -/
def IsDecimal (digits : List Char) (value : Nat) : Prop :=
  digits ≠ [] ∧ (∀ digit ∈ digits, digit.isDigit = true) ∧ decimalValue digits = value

/-- A decimal number of the value, which may be preceded by a plus sign. -/
def IsNumeral (text : String) (value : Nat) : Prop :=
  ∃ digits, (text.toList = digits ∨ text.toList = '+' :: digits) ∧ IsDecimal digits value

theorem decimalValue_cons (digit : Char) (rest : List Char) :
    decimalValue (digit :: rest) = digitValue digit * 10 ^ rest.length + decimalValue rest := by
  rw [decimalValue, List.reverse_cons, List.map_append, List.map_singleton, Nat.ofDigits_append,
    Nat.ofDigits_singleton, List.length_map, List.length_reverse, ← decimalValue]
  ring

theorem digit?_eq_some_iff {character : Char} {value : Nat} :
    digit? character = some value ↔ character.isDigit = true ∧ digitValue character = value := by
  unfold digit?
  split
  · rename_i isDigit
    simp [isDigit, digitValue]
  · rename_i other
    simp [other]

/-- Reading goes on from a value by moving it up one place for every digit. -/
theorem digits?_eq_some_iff {digits : List Char} {before value : Nat} :
    digits? before digits = some value ↔
      (∀ digit ∈ digits, digit.isDigit = true) ∧
        before * 10 ^ digits.length + decimalValue digits = value := by
  induction digits generalizing before with
  | nil => simp [digits?, decimalValue]
  | cons digit rest inductionHypothesis =>
    have moved : (before * 10 + digitValue digit) * 10 ^ rest.length + decimalValue rest =
        before * 10 ^ (rest.length + 1) + decimalValue (digit :: rest) := by
      rw [decimalValue_cons]
      ring
    rw [digits?, Option.bind_eq_some_iff, List.forall_mem_cons, List.length_cons, ← moved]
    simp only [digit?_eq_some_iff, inductionHypothesis]
    constructor
    · rintro ⟨_, ⟨isDigit, rfl⟩, others, same⟩
      exact ⟨⟨isDigit, others⟩, same⟩
    · rintro ⟨⟨isDigit, others⟩, same⟩
      exact ⟨_, ⟨isDigit, rfl⟩, others, same⟩

/-- The sign is no digit, so it is never part of the number. -/
theorem isNumeral_signed {text : String} {digits : List Char} (signed : text.toList = '+' :: digits)
    {value : Nat} : IsNumeral text value ↔ IsDecimal digits value := by
  constructor
  · rintro ⟨others, same | same, isDecimal⟩
    · have isDigit := isDecimal.2.1 '+' (by simp [← same, signed])
      exact absurd isDigit (by decide)
    · obtain rfl := (List.cons.inj (signed.symm.trans same)).2
      exact isDecimal
  · exact fun isDecimal => ⟨digits, Or.inr signed, isDecimal⟩

theorem isNumeral_unsigned {text : String} (unsigned : ∀ rest, text.toList ≠ '+' :: rest)
    {value : Nat} : IsNumeral text value ↔ IsDecimal text.toList value := by
  constructor
  · rintro ⟨digits, same | same, isDecimal⟩
    · exact same ▸ isDecimal
    · exact absurd same (unsigned digits)
  · exact fun isDecimal => ⟨text.toList, Or.inl rfl, isDecimal⟩

section

variable {bound value : Nat} {digits : List Char}

theorem readDecimal_eq_some_iff :
    (if digits.isEmpty then none
      else (digits? 0 digits).bind fun read => if read < bound then some read else none) =
        some value ↔ IsDecimal digits value ∧ value < bound := by
  cases digits with
  | nil => simp [IsDecimal]
  | cons digit rest =>
    rw [if_neg (by simp), Option.bind_eq_some_iff, IsDecimal]
    simp only [digits?_eq_some_iff, Nat.zero_mul, Nat.zero_add, Option.ite_none_right_eq_some,
      Option.some.injEq]
    constructor
    · rintro ⟨_, ⟨areDigits, same⟩, fits, rfl⟩
      exact ⟨⟨List.cons_ne_nil _ _, areDigits, same⟩, fits⟩
    · rintro ⟨⟨-, areDigits, same⟩, fits⟩
      exact ⟨value, ⟨areDigits, same⟩, fits, rfl⟩

theorem numeralBelow?_signed :
    numeralBelow? bound ('+' :: digits) = some value ↔ IsDecimal digits value ∧ value < bound :=
  readDecimal_eq_some_iff

theorem numeralBelow?_unsigned (unsigned : ∀ rest, digits ≠ '+' :: rest) :
    numeralBelow? bound digits = some value ↔ IsDecimal digits value ∧ value < bound := by
  unfold numeralBelow?
  extract_lets read
  have same : read = digits := by
    unfold read
    split
    · exact absurd rfl (unsigned _)
    · rfl
  rw [same]
  exact readDecimal_eq_some_iff

end

/-- Exactly the numerals of values that fit in 32 bits are read, and with these values. -/
theorem numeral32?_eq_some_iff {text : String} {value : Nat} :
    numeral32? text = some value ↔ IsNumeral text value ∧ value ≤ 2 ^ 32 - 1 := by
  have fits : value ≤ 2 ^ 32 - 1 ↔ value < 0x100000000 := by omega
  rw [fits, numeral32?]
  by_cases signed : ∃ digits, text.toList = '+' :: digits
  · obtain ⟨digits, signed⟩ := signed
    rw [signed, numeralBelow?_signed, isNumeral_signed signed]
  · have unsigned := not_exists.mp signed
    rw [numeralBelow?_unsigned unsigned, isNumeral_unsigned unsigned]

end PatternGraph.Text

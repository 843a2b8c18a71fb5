import Mathlib.Data.List.Basic
import Mathlib.Data.Nat.Basic
import Mathlib.Tactic.IntervalCases

/-!
# Canonical decimal numerals

`toDecimal` writes a natural number in base ten, and `ofDecimal` reads exactly the numerals
without leading zeros. `ofDecimal_toDecimal` is the round trip.
-/

set_option autoImplicit false

namespace OutpostPi.Lib

/-- The base-ten numeral of a number. -/
def toDecimal (n : Nat) : String := String.ofList (Nat.toDigits 10 n)

/-- One zero, or digits of which the first is not zero. -/
def isDecimal : List Char → Bool
  | [] => false
  | ['0'] => true
  | c :: rest => decide ('1' ≤ c) && decide (c ≤ '9') && rest.all Char.isDigit

/-- Read a numeral without leading zeros. -/
def ofDecimal (text : String) : Option Nat :=
  if isDecimal text.toList then some (Nat.ofDigitChars 10 text.toList 0) else none

theorem isDigit_of_mem_toDigits (n : Nat) : (Nat.toDigits 10 n).all Char.isDigit = true := by
  rw [List.all_eq_true]
  intro c mem
  exact Nat.isDigit_of_mem_toDigits (by decide) (by decide) mem

/-- A positive number starts with a digit other than zero. -/
theorem head_toDigits {n : Nat} (positive : 0 < n) :
    ∃ c rest, Nat.toDigits 10 n = c :: rest ∧ '1' ≤ c ∧ c ≤ '9' := by
  induction n using Nat.strongRecOn with
  | ind n ih =>
    rcases Nat.lt_or_ge n 10 with small | large
    · rw [Nat.toDigits_of_lt_base small]
      refine ⟨_, _, rfl, ?_⟩
      interval_cases n <;> decide
    · obtain ⟨c, rest, eq, least, most⟩ := ih (n / 10) (by omega) (by omega)
      refine ⟨c, rest ++ [Nat.digitChar (n % 10)], ?_, least, most⟩
      rw [Nat.toDigits_eq_if (by decide), if_neg (by omega), eq]
      rfl

theorem isDecimal_toDigits (n : Nat) : isDecimal (Nat.toDigits 10 n) = true := by
  rcases Nat.eq_zero_or_pos n with rfl | positive
  · decide
  · have digits := isDigit_of_mem_toDigits n
    obtain ⟨c, rest, eq, least, most⟩ := head_toDigits positive
    rw [eq] at digits ⊢
    have tail : rest.all Char.isDigit = true := by
      rw [List.all_cons, Bool.and_eq_true] at digits
      exact digits.2
    rw [isDecimal]
    · simp [least, most, tail]
    · rintro rfl -
      exact absurd least (by decide)

/-- What is written is read back. -/
@[simp] theorem ofDecimal_toDecimal (n : Nat) : ofDecimal (toDecimal n) = some n := by
  rw [ofDecimal, toDecimal, String.toList_ofList, if_pos (isDecimal_toDigits n),
    Nat.ofDigitChars_ten_toDigits]

end OutpostPi.Lib

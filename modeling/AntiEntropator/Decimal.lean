import Mathlib.Data.List.Basic

/-!
# Decimal numerals

Digits are read from the left with a bound that no number on the way may reach.
The numbers on the way only grow, so the bound is one on the value.
-/

namespace Decimal

/-- One or more digits. -/
def IsNumeral (digits : List Char) : Prop :=
  digits ≠ [] ∧ ∀ digit ∈ digits, digit.isDigit = true

instance (digits : List Char) : Decidable (IsNumeral digits) :=
  inferInstanceAs (Decidable (_ ∧ _))

def value (digits : List Char) : Nat := Nat.ofDigitChars 10 digits 0

/-- The number after some digits, where every step stays below the bound. -/
def accumulate (bound : Nat) : Nat → List Char → Option Nat
  | number, [] => some number
  | number, digit :: rest =>
      let next := 10 * number + (digit.toNat - '0'.toNat)
      if digit.isDigit = true ∧ next < bound then accumulate bound next rest else none

theorem le_ofDigitChars (digits : List Char) (number : Nat) :
    number ≤ Nat.ofDigitChars 10 digits number := by
  induction digits generalizing number with
  | nil => simp
  | cons digit rest inductionHypothesis =>
      rw [Nat.ofDigitChars_cons]
      have later := inductionHypothesis (10 * number + (digit.toNat - '0'.toNat))
      omega

theorem accumulate_eq_some_iff {bound : Nat} {digits : List Char} {number total : Nat}
    (small : number < bound) : accumulate bound number digits = some total ↔
      (∀ digit ∈ digits, digit.isDigit = true) ∧
        total = Nat.ofDigitChars 10 digits number ∧ total < bound := by
  induction digits generalizing number with
  | nil =>
      simp only [accumulate, Option.some.injEq, Nat.ofDigitChars_nil]
      constructor
      · rintro rfl
        exact ⟨by simp, rfl, small⟩
      · rintro ⟨-, rfl, -⟩
        rfl
  | cons digit rest inductionHypothesis =>
      have grown := le_ofDigitChars rest (10 * number + (digit.toNat - '0'.toNat))
      rw [accumulate, Nat.ofDigitChars_cons, List.forall_mem_cons]
      split
      next fits =>
        rw [inductionHypothesis fits.2]
        simp [fits.1]
      next stops =>
        constructor
        · intro impossible
          cases impossible
        · rintro ⟨⟨isDigit, -⟩, rfl, below⟩
          exact absurd ⟨isDigit, Nat.lt_of_le_of_lt grown below⟩ stops

/-- A number as a reader of unsigned ones takes it: a plus sign may stand before
the digits. -/
inductive Unsigned : List Char → Nat → Prop where
  | plain {digits : List Char} : IsNumeral digits → Unsigned digits (value digits)
  | plus {digits : List Char} : IsNumeral digits → Unsigned ('+' :: digits) (value digits)

def readUnsigned (bound : Nat) : List Char → Option Nat
  | [] => none
  | ['+'] => none
  | '+' :: digits => accumulate bound 0 digits
  | digits => accumulate bound 0 digits

theorem readUnsigned_plus {bound : Nat} {digits : List Char} (nonempty : digits ≠ []) :
    readUnsigned bound ('+' :: digits) = accumulate bound 0 digits := by
  cases digits with
  | nil => exact absurd rfl nonempty
  | cons digit rest => rfl

theorem readUnsigned_plain {bound : Nat} {first : Char} {rest : List Char} (plain : first ≠ '+') :
    readUnsigned bound (first :: rest) = accumulate bound 0 (first :: rest) := by
  unfold readUnsigned
  split <;> simp_all

theorem IsNumeral.plus_notMem {digits : List Char} (numeral : IsNumeral digits) :
    '+' ∉ digits := by
  intro member
  exact absurd (numeral.2 '+' member) (by decide)

theorem readUnsigned_eq_some_iff {bound : Nat} (positive : 0 < bound) {text : List Char}
    {number : Nat} : readUnsigned bound text = some number ↔
      Unsigned text number ∧ number < bound := by
  constructor
  · intro found
    match text with
    | [] => cases found
    | first :: rest =>
      by_cases sign : first = '+'
      · subst sign
        cases rest with
        | nil => cases found
        | cons digit rest =>
            rw [readUnsigned_plus (by simp)] at found
            obtain ⟨allDigits, rfl, below⟩ := (accumulate_eq_some_iff positive).mp found
            exact ⟨.plus ⟨by simp, allDigits⟩, below⟩
      · rw [readUnsigned_plain sign] at found
        obtain ⟨allDigits, rfl, below⟩ := (accumulate_eq_some_iff positive).mp found
        exact ⟨.plain ⟨by simp, allDigits⟩, below⟩
  · rintro ⟨reading, below⟩
    cases reading with
    | @plain digits numeral =>
        obtain ⟨first, rest, rfl⟩ := List.exists_cons_of_ne_nil numeral.1
        have plain : first ≠ '+' := by
          rintro rfl
          exact numeral.plus_notMem (by simp)
        rw [readUnsigned_plain plain]
        exact (accumulate_eq_some_iff positive).mpr ⟨numeral.2, rfl, below⟩
    | plus numeral =>
        rw [readUnsigned_plus numeral.1]
        exact (accumulate_eq_some_iff positive).mpr ⟨numeral.2, rfl, below⟩

end Decimal

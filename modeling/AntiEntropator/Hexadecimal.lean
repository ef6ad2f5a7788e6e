import Mathlib.Algebra.Group.Nat.Defs
import Mathlib.Data.List.Basic

/-!
# Hexadecimal digits

Digits are written in lowercase and read in either case.
-/

namespace Hexadecimal

def digit (value : Nat) : Char :=
  ['0', '1', '2', '3', '4', '5', '6', '7', '8', '9', 'a', 'b', 'c', 'd', 'e', 'f'].getD value '0'

def value? (character : Char) : Option Nat :=
  if character.isDigit then some (character.toNat - 48)
  else if 'a' ≤ character ∧ character ≤ 'f' then some (character.toNat - 87)
  else if 'A' ≤ character ∧ character ≤ 'F' then some (character.toNat - 55)
  else none

def number (digits : List Nat) : Nat := digits.foldl (fun number digit => number * 16 + digit) 0

theorem value?_digit {value : Nat} (small : value < 16) : value? (digit value) = some value := by
  have read : ∀ value : Fin 16, value? (digit value.val) = some value.val := by decide
  exact read ⟨value, small⟩

theorem mapM_value?_digit {values : List Nat} (small : ∀ value ∈ values, value < 16) :
    (values.map digit).mapM value? = some values := by
  induction values with
  | nil => rfl
  | cons value rest inductionHypothesis =>
      obtain ⟨own, others⟩ := List.forall_mem_cons.mp small
      rw [List.map_cons, List.mapM_cons, value?_digit own, inductionHypothesis others]
      rfl

@[simp]
theorem number_append_singleton (digits : List Nat) (last : Nat) :
    number (digits ++ [last]) = number digits * 16 + last := by
  rw [number, number, List.foldl_append]
  rfl

theorem number_highest {value total : Nat} (fits : value < 16 ^ total) {count : Nat}
    (some : count ≤ total) :
    number ((List.range count).map fun index => value / 16 ^ (total - 1 - index) % 16) =
      value / 16 ^ (total - count) := by
  induction count with
  | zero => exact (Nat.div_eq_of_lt fits).symm
  | succ count inductionHypothesis =>
      have before := inductionHypothesis (Nat.le_of_succ_le some)
      have place : total - count = total - 1 - count + 1 := by omega
      have next : total - (count + 1) = total - 1 - count := by omega
      rw [List.range_succ, List.map_append, List.map_singleton, number_append_singleton, before,
        place, next, Nat.pow_succ, ← Nat.div_div_eq_div_mul]
      exact Nat.div_add_mod' _ _

end Hexadecimal

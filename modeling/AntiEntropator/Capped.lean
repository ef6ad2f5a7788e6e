import Mathlib.Data.List.Basic

/-!
# Trying items up to a number of successes

Items are tried in order until a given number of them succeeded; failures do
not count.  What was tried is a prefix, and it is everything unless the cap was
reached.
-/

universe u

namespace Capped

variable {Item : Type u} (succeeds : Item → Bool)

/-- The items tried before `cap` of them succeeded. -/
def attempted : Nat → List Item → List Item
  | _, [] => []
  | cap, item :: items =>
      if cap = 0 then []
      else item :: attempted (if succeeds item then cap - 1 else cap) items

@[simp]
theorem attempted_nil (cap : Nat) : attempted succeeds cap [] = [] := rfl

@[simp]
theorem attempted_zero (items : List Item) : attempted succeeds 0 items = [] := by
  cases items <;> rfl

theorem attempted_cons {cap : Nat} (positive : 0 < cap) (item : Item) (items : List Item) :
    attempted succeeds cap (item :: items) =
      item :: attempted succeeds (if succeeds item then cap - 1 else cap) items := by
  rw [attempted, if_neg (Nat.ne_of_gt positive)]

theorem attempted_prefix (cap : Nat) (items : List Item) :
    attempted succeeds cap items <+: items := by
  induction items generalizing cap with
  | nil => exact List.prefix_rfl
  | cons item items inductionHypothesis =>
      unfold attempted
      split
      · exact List.nil_prefix
      · exact (List.cons_prefix_cons).mpr ⟨rfl, inductionHypothesis _⟩

theorem countP_attempted_le (cap : Nat) (items : List Item) :
    (attempted succeeds cap items).countP succeeds ≤ cap := by
  induction items generalizing cap with
  | nil => exact Nat.zero_le _
  | cons item items inductionHypothesis =>
      rcases Nat.eq_zero_or_pos cap with rfl | positive
      · simp
      · rw [attempted_cons succeeds positive, List.countP_cons]
        cases won : succeeds item with
        | true =>
            have rest := inductionHypothesis (cap - 1)
            simp only [if_true]
            omega
        | false => simpa using inductionHypothesis cap

theorem attempted_of_countP_lt {cap : Nat} {items : List Item}
    (below : (attempted succeeds cap items).countP succeeds < cap) :
    attempted succeeds cap items = items := by
  induction items generalizing cap with
  | nil => rfl
  | cons item items inductionHypothesis =>
      have positive : 0 < cap := Nat.zero_lt_of_lt below
      rw [attempted_cons succeeds positive] at below ⊢
      rw [List.countP_cons] at below
      rw [inductionHypothesis]
      cases won : succeeds item with
      | true =>
          simp only [won, if_true] at below ⊢
          omega
      | false => simpa [won] using below

theorem attempted_of_length_le {cap : Nat} {items : List Item} (enough : items.length ≤ cap) :
    attempted succeeds cap items = items := by
  induction items generalizing cap with
  | nil => rfl
  | cons item items inductionHypothesis =>
      rw [List.length_cons] at enough
      rw [attempted_cons succeeds (by omega), inductionHypothesis]
      split <;> omega

/-- Trying two lists in turn, with what the first leaves of the cap. -/
theorem attempted_append (cap : Nat) (items others : List Item) :
    attempted succeeds cap (items ++ others) = attempted succeeds cap items ++
      attempted succeeds (cap - (attempted succeeds cap items).countP succeeds) others := by
  induction items generalizing cap with
  | nil => simp
  | cons item items inductionHypothesis =>
      rcases Nat.eq_zero_or_pos cap with rfl | positive
      · simp
      · rw [List.cons_append, attempted_cons succeeds positive, attempted_cons succeeds positive,
          inductionHypothesis, List.countP_cons, List.cons_append]
        congr 3
        cases won : succeeds item with
        | true =>
            simp only [if_true]
            omega
        | false => simp

end Capped

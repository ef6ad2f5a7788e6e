import Mathlib.Algebra.BigOperators.Ring.Finset
import Mathlib.Algebra.Order.BigOperators.Group.Finset

/-!
# Redundant weight

Of several items with one key, all but one are redundant.  Whatever is not
redundant is the weight of the distinct keys, and merging keys can only make
more items redundant.
-/

universe u v

namespace Redundancy

variable {Key : Type u} {Coarse : Type v} [DecidableEq Key] [DecidableEq Coarse]

/-- The weight of all items but one for each key. -/
def redundant (weight : Key → Nat) (keys : List Key) : Nat :=
  ∑ key ∈ keys.toFinset, (keys.count key - 1) * weight key

theorem redundant_add_distinct (weight : Key → Nat) (keys : List Key) :
    redundant weight keys + ∑ key ∈ keys.toFinset, weight key = (keys.map weight).sum := by
  rw [Finset.sum_list_map_count, redundant, ← Finset.sum_add_distrib]
  apply Finset.sum_congr rfl
  intro key member
  have occurs : 0 < keys.count key := List.count_pos_iff.mpr (List.mem_toFinset.mp member)
  rw [nsmul_eq_mul, Nat.cast_id, ← Nat.succ_mul, Nat.succ_eq_add_one, Nat.sub_add_cancel occurs]

theorem redundant_congr {weight other : Key → Nat} {keys : List Key}
    (same : ∀ key ∈ keys, weight key = other key) : redundant weight keys = redundant other keys := by
  apply Finset.sum_congr rfl
  intro key member
  rw [same key (List.mem_toFinset.mp member)]

theorem redundant_le_sum (weight : Key → Nat) (keys : List Key) :
    redundant weight keys ≤ (keys.map weight).sum := by
  have whole := redundant_add_distinct weight keys
  omega

theorem toFinset_map (merge : Key → Coarse) (keys : List Key) :
    (keys.map merge).toFinset = keys.toFinset.image merge := by
  ext key
  simp

theorem redundant_le_map (merge : Key → Coarse) (weight : Coarse → Nat) (keys : List Key) :
    redundant (fun key => weight (merge key)) keys ≤ redundant weight (keys.map merge) := by
  have fine := redundant_add_distinct (fun key => weight (merge key)) keys
  have coarse := redundant_add_distinct weight (keys.map merge)
  have distinct : ∑ key ∈ (keys.map merge).toFinset, weight key ≤
      ∑ key ∈ keys.toFinset, weight (merge key) := by
    rw [toFinset_map]
    exact Finset.sum_image_le_of_nonneg fun _ _ => Nat.zero_le _
  rw [List.map_map] at coarse
  simp only [Function.comp_def] at coarse
  omega

theorem redundant_map_of_injOn {merge : Key → Coarse} {keys : List Key}
    (apart : ∀ first ∈ keys, ∀ second ∈ keys, merge first = merge second → first = second)
    (weight : Coarse → Nat) :
    redundant weight (keys.map merge) = redundant (fun key => weight (merge key)) keys := by
  have fine := redundant_add_distinct (fun key => weight (merge key)) keys
  have coarse := redundant_add_distinct weight (keys.map merge)
  have distinct : ∑ key ∈ (keys.map merge).toFinset, weight key =
      ∑ key ∈ keys.toFinset, weight (merge key) := by
    rw [toFinset_map]
    apply Finset.sum_image
    intro first firstMember second secondMember same
    exact apart first (List.mem_toFinset.mp firstMember) second
      (List.mem_toFinset.mp secondMember) same
  rw [List.map_map] at coarse
  simp only [Function.comp_def] at coarse
  omega

end Redundancy

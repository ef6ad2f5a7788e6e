import Mathlib.Data.List.Basic

/-!
# Batches of bounded size

A sequence cut into batches of a fixed size, where only the last batch may be
shorter and no batch is empty.  The number of batches is then determined by
the length of the sequence.
-/

universe u

namespace Batching

variable {Item : Type u}

def Full (size : Nat) (batches : List (List Item)) : Prop :=
  ∀ batch ∈ batches, batch.length = size

/-- Every batch but the last is full; the last is nonempty and not larger. -/
structure Batched (size : Nat) (batches : List (List Item)) : Prop where
  full : Full size batches.dropLast
  nonempty : ∀ batch ∈ batches, batch ≠ []
  bounded : ∀ batch ∈ batches, batch.length ≤ size

@[simp]
theorem full_nil (size : Nat) : Full size ([] : List (List Item)) := by simp [Full]

theorem Full.snoc {size : Nat} {batches : List (List Item)} {batch : List Item}
    (full : Full size batches) (length : batch.length = size) :
    Full size (batches ++ [batch]) := by
  intro candidate member
  rcases List.mem_append.mp member with earlier | last
  · exact full candidate earlier
  · rw [List.mem_singleton.mp last]
    exact length

theorem Full.length_flatten {size : Nat} {batches : List (List Item)}
    (full : Full size batches) : batches.flatten.length = batches.length * size := by
  induction batches with
  | nil => simp
  | cons batch rest inductionHypothesis =>
      have here := full batch (by simp)
      have there := inductionHypothesis fun candidate member =>
        full candidate (List.mem_cons_of_mem _ member)
      simp only [List.flatten_cons, List.length_append, List.length_cons, here, there,
        Nat.add_mul, Nat.one_mul, Nat.add_comm]

theorem Full.batched {size : Nat} {batches : List (List Item)} (positive : 0 < size)
    (full : Full size batches) : Batched size batches where
  full := fun batch member => full batch (List.dropLast_subset _ member)
  nonempty := by
    rintro batch member rfl
    have length := full [] member
    simp only [List.length_nil] at length
    omega
  bounded := fun batch member => Nat.le_of_eq (full batch member)

theorem Full.batched_snoc {size : Nat} {batches : List (List Item)} {batch : List Item}
    (positive : 0 < size) (full : Full size batches) (nonempty : batch ≠ [])
    (bounded : batch.length ≤ size) : Batched size (batches ++ [batch]) := by
  have earlier := full.batched positive
  refine ⟨by simpa using full, ?_, ?_⟩
  · intro candidate member
    rcases List.mem_append.mp member with before | last
    · exact earlier.nonempty candidate before
    · rw [List.mem_singleton.mp last]
      exact nonempty
  · intro candidate member
    rcases List.mem_append.mp member with before | last
    · exact earlier.bounded candidate before
    · rw [List.mem_singleton.mp last]
      exact bounded

/-- The number of batches is the length divided by the size, rounded up. -/
theorem Batched.length_eq {size : Nat} {batches : List (List Item)} (positive : 0 < size)
    (batched : Batched size batches) :
    batches.length = (batches.flatten.length + (size - 1)) / size := by
  rcases List.eq_nil_or_concat batches with rfl | ⟨full, last, rfl⟩
  · simp [Nat.div_eq_of_lt (show size - 1 < size by omega)]
  · rw [List.concat_eq_append] at batched ⊢
    have allFull : Full size full := by simpa using batched.full
    have filled := allFull.length_flatten
    have short := batched.bounded last (by simp)
    have some : 0 < last.length := List.length_pos_iff.mpr (batched.nonempty last (by simp))
    symm
    apply Nat.div_eq_of_lt_le
    · simp only [List.length_append, List.length_cons, List.length_nil, List.flatten_append,
        List.flatten_cons, List.flatten_nil, List.append_nil, filled, Nat.add_mul]
      omega
    · simp only [List.length_append, List.length_cons, List.length_nil, List.flatten_append,
        List.flatten_cons, List.flatten_nil, List.append_nil, filled, Nat.add_mul]
      omega

end Batching

import AntiEntropator.Profile.Walk
import AntiEntropator.StableSort

/-!
# The largest files

The scanner keeps a buffer of the largest files that it sorts and cuts whenever
it grows too long.  Whatever it leaves out could not have been among the first,
so the final list is that of a full sort.
-/

namespace AntiEntropator.Profile

open StableSort

theorem largestFirst_trans (first second third : UInt64 × String)
    (one : largestFirst first second = true) (other : largestFirst second third = true) :
    largestFirst first third = true := by
  simp only [largestFirst, decide_eq_true_eq] at one other ⊢
  exact UInt64.le_trans other one

theorem largestFirst_total (first second : UInt64 × String) :
    (largestFirst first second || largestFirst second first) = true := by
  simp only [largestFirst, Bool.or_eq_true, decide_eq_true_eq]
  exact UInt64.le_total second.1 first.1

/-- The buffer always leads to the first fifteen of everything seen. -/
theorem represents_foldl (files : List (UInt64 × String)) :
    Represents largestFirst 15 (files.foldl pushLargest []) files := by
  induction files using List.reverseRecOn with
  | nil => exact .refl []
  | append_singleton files file inductionHypothesis =>
      have pushed := inductionHypothesis.snoc file
      rw [List.foldl_append, List.foldl_cons, List.foldl_nil, pushLargest]
      split
      next => exact pushed.prune largestFirst_trans largestFirst_total (by decide)
      next => exact pushed

/-- The reported largest files are the first fifteen of a stable sort of all files
by descending size, ties in walk order. -/
theorem largest_files_are_those_of_a_full_sort (table : CaseTable) (probes : Probes)
    (options : ScanOptions) (sizeOrder : IterationOrder (UInt64 × List String))
    (groupOrder : IterationOrder ((UInt64 × String) × List String)) (root : List UInt8)
    (walk : Walk) :
    (scan table probes options sizeOrder groupOrder root walk).largestFiles =
      ((regularFiles walk).mergeSort largestFirst).take 15 := by
  have first : ((scanWalk table probes options root walk).largest.mergeSort largestFirst).take 15 =
      ((regularFiles walk).mergeSort largestFirst).take 15 := by
    rw [largest_scanWalk]
    exact (represents_foldl (regularFiles walk)).take_mergeSort
  have sorted := (List.pairwise_mergeSort largestFirst_trans largestFirst_total
    (regularFiles walk)).sublist (List.take_sublist 15 _)
  have final : (scan table probes options sizeOrder groupOrder root walk).largestFiles =
      ((((scanWalk table probes options root walk).largest.mergeSort largestFirst).take
        15).mergeSort largestFirst).take 15 := by
    unfold scan ProfileResult.finalize
    dsimp only
    split <;> rfl
  rw [final, first, List.mergeSort_of_pairwise sorted, List.take_take, Nat.min_self]

end AntiEntropator.Profile

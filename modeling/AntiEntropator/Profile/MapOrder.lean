import AntiEntropator.Profile.HashCap
import AntiEntropator.Profile.Walk

/-!
# Hash-map order

Two runs that see the same files and the same hashes may iterate their hash
maps in different orders.  Unless the cap cuts the hashing short, the counts and
sizes of the candidate groups are the same, and with them everything the
estimate reports but the sample paths.
-/

namespace AntiEntropator.Profile

open Capped Grouping

def summary (group : (UInt64 × String) × List String) : Nat × UInt64 :=
  (group.2.length, group.1.1)

/-- By count and then by size, descending. -/
def Before (first second : Nat × UInt64) : Prop :=
  second.1 < first.1 ∨ second.1 = first.1 ∧ second.2 ≤ first.2

theorem Before.antisymm {first second : Nat × UInt64} (one : Before first second)
    (other : Before second first) : first = second := by
  unfold Before at one other
  have counts : first.1 = second.1 := by omega
  have sizes : first.2 = second.2 := by
    rcases one with less | ⟨-, larger⟩
    · omega
    · rcases other with less | ⟨-, smaller⟩
      · omega
      · exact UInt64.le_antisymm smaller larger
  exact Prod.ext counts sizes

theorem countThenSize_iff {first second : (UInt64 × String) × List String} :
    countThenSize first second = true ↔ Before (summary first) (summary second) := by
  simp [countThenSize, Before, summary]

theorem countThenSize_trans (first second third : (UInt64 × String) × List String)
    (one : countThenSize first second = true) (other : countThenSize second third = true) :
    countThenSize first third = true := by
  simp only [countThenSize, decide_eq_true_eq] at one other ⊢
  rcases one with less | ⟨same, larger⟩ <;> rcases other with fewer | ⟨equal, smaller⟩
  · exact .inl (Nat.lt_trans fewer less)
  · exact .inl (equal ▸ less)
  · exact .inl (same ▸ fewer)
  · exact .inr ⟨equal.trans same, UInt64.le_trans smaller larger⟩

theorem countThenSize_total (first second : (UInt64 × String) × List String) :
    (countThenSize first second || countThenSize second first) = true := by
  simp only [countThenSize, Bool.or_eq_true, decide_eq_true_eq]
  have sizes := UInt64.le_total first.1.1 second.1.1
  rcases Nat.lt_trichotomy first.2.length second.2.length with less | same | more
  · exact .inr (.inl less)
  · rcases sizes with smaller | larger
    · exact .inr (.inr ⟨same, smaller⟩)
    · exact .inl (.inr ⟨same.symm, larger⟩)
  · exact .inl (.inl more)

theorem pairwise_confirmedGroups (groupOrder : IterationOrder ((UInt64 × String) × List String))
    (groups : List ((UInt64 × String) × List String)) :
    ((confirmedGroups groupOrder groups).map summary).Pairwise Before := by
  rw [List.pairwise_map]
  exact (List.pairwise_mergeSort countThenSize_trans countThenSize_total _).imp
    fun ordered => countThenSize_iff.mp ordered

theorem summary_group_perm {first second : List ((UInt64 × String) × String)}
    (same : first.Perm second) :
    ((group first).map summary).Perm ((group second).map summary) := by
  simp only [group_eq, List.map_map, Function.comp_def, summary, length_under_perm same]
  exact (keys_perm same).map _

/-- The summaries of the confirmed groups, in report order, only depend on how
often each key occurs. -/
theorem summary_confirmedGroups_eq
    (firstOrder secondOrder : IterationOrder ((UInt64 × String) × List String))
    {first second : List ((UInt64 × String) × String)} (same : first.Perm second) :
    (confirmedGroups firstOrder (group first)).map summary =
      (confirmedGroups secondOrder (group second)).map summary := by
  have large (order : IterationOrder ((UInt64 × String) × List String))
      (items : List ((UInt64 × String) × String)) :
      ((confirmedGroups order (group items)).map summary).Perm
        (((group items).map summary).filter fun shown => 1 < shown.1) := by
    rw [List.filter_map]
    exact (confirmedGroups_perm order (group items)).map summary
  apply List.Perm.eq_of_pairwise _ (pairwise_confirmedGroups firstOrder _)
    (pairwise_confirmedGroups secondOrder _)
  · exact (large firstOrder first).trans
      (((summary_group_perm same).filter _).trans (large secondOrder second).symm)
  · exact fun _ _ _ _ one other => one.antisymm other

theorem foldl_groupBytes (groups : List ((UInt64 × String) × List String)) :
    groups.foldl (fun bytes group => bytes + groupBytes group) 0 =
      (groups.map summary).foldl
        (fun bytes shown => bytes + (UInt64.ofNat shown.1 - 1) * shown.2) 0 := by
  rw [List.foldl_map]
  rfl

theorem examined_all (quickHash : String → Option String) {cap : Nat}
    (order : IterationOrder (UInt64 × List String)) {bySize : List (UInt64 × List String)}
    (uncapped : ((bySize.filter fun group => 1 < group.2.length).map fun group =>
      group.2.length).sum ≤ cap) :
    Examined quickHash (candidateFiles (sizeCandidates order bySize))
      (hashCandidates quickHash cap (sizeCandidates order bySize) ⟨[], 0, 0, []⟩) := by
  have examined := examined_candidates quickHash cap (sizeCandidates order bySize)
  rwa [attempted_of_length_le] at examined
  rw [length_candidateFiles]
  exact Nat.le_trans (Nat.le_of_eq ((sizeCandidates_perm order bySize).map _).sum_nat) uncapped

theorem candidateFiles_perm (first second : IterationOrder (UInt64 × List String))
    (bySize : List (UInt64 × List String)) :
    (candidateFiles (sizeCandidates first bySize)).Perm
      (candidateFiles (sizeCandidates second bySize)) :=
  ((sizeCandidates_perm first bySize).trans (sizeCandidates_perm second bySize).symm).flatMap_right _

def DuplicateEstimate.shown (estimate : DuplicateEstimate) : List (Nat × UInt64) :=
  estimate.topGroups.map fun group => (group.count, group.sizeBytes)

/-- Two estimates that differ at most in sample paths. -/
structure DuplicateEstimate.Agrees (first second : DuplicateEstimate) : Prop where
  sizeCandidateGroups : first.sizeCandidateGroups = second.sizeCandidateGroups
  quickhashConfirmedGroups : first.quickhashConfirmedGroups = second.quickhashConfirmedGroups
  filesHashed : first.filesHashed = second.filesHashed
  hashErrors : first.hashErrors = second.hashErrors
  filesNotExamined : first.filesNotExamined = second.filesNotExamined
  reclaimableBytes : first.reclaimableBytes = second.reclaimableBytes
  shown : first.shown = second.shown

section Estimate

variable {quickHash : String → Option String} {cap : Nat} {bySize : List (UInt64 × List String)}

theorem shown_estimateDuplicates (sizeOrder : IterationOrder (UInt64 × List String))
    (groupOrder : IterationOrder ((UInt64 × String) × List String)) :
    (estimateDuplicates quickHash cap sizeOrder groupOrder bySize).shown =
      ((confirmedGroups groupOrder (hashCandidates quickHash cap (sizeCandidates sizeOrder bySize)
        ⟨[], 0, 0, []⟩).groups).map summary).take 10 := by
  simp only [DuplicateEstimate.shown, estimateDuplicates, List.map_map, List.map_take]
  rfl

theorem pairwise_shown (sizeOrder : IterationOrder (UInt64 × List String))
    (groupOrder : IterationOrder ((UInt64 × String) × List String)) :
    (estimateDuplicates quickHash cap sizeOrder groupOrder bySize).shown.Pairwise Before := by
  rw [shown_estimateDuplicates]
  exact (pairwise_confirmedGroups groupOrder _).sublist (List.take_sublist 10 _)

theorem estimateDuplicates_agrees (firstSizes secondSizes : IterationOrder (UInt64 × List String))
    (firstGroups secondGroups : IterationOrder ((UInt64 × String) × List String))
    (uncapped : ((bySize.filter fun group => 1 < group.2.length).map fun group =>
      group.2.length).sum ≤ cap) :
    (estimateDuplicates quickHash cap firstSizes firstGroups bySize).Agrees
      (estimateDuplicates quickHash cap secondSizes secondGroups bySize) := by
  have firstRun := examined_all quickHash firstSizes uncapped
  have secondRun := examined_all quickHash secondSizes uncapped
  have candidates := (sizeCandidates_perm firstSizes bySize).trans
    (sizeCandidates_perm secondSizes bySize).symm
  have files := candidateFiles_perm firstSizes secondSizes bySize
  have hashed := firstRun.hashed.trans ((files.countP_eq _).trans secondRun.hashed.symm)
  have total := firstRun.total.trans (files.length_eq.trans secondRun.total.symm)
  have counted := (candidates.map fun group => group.2.length).sum_nat
  have groups := summary_confirmedGroups_eq firstGroups secondGroups
    (files.filterMap (hashedItem? quickHash))
  rw [← firstRun.groups, ← secondRun.groups] at groups
  refine ⟨candidates.length_eq, ?_, hashed, ?_, ?_, ?_, ?_⟩
  · have lengths := congrArg List.length groups
    rwa [List.length_map, List.length_map] at lengths
  · simp only [estimateDuplicates]
    omega
  · simp only [estimateDuplicates]
    omega
  · simp only [estimateDuplicates, foldl_groupBytes, groups]
  · rw [shown_estimateDuplicates, shown_estimateDuplicates, groups]

end Estimate

/-- Without truncation, the estimate of a profile does not depend on the iteration
order of the hash maps, but for its sample paths. -/
theorem estimate_does_not_depend_on_map_order (table : CaseTable) (probes : Probes)
    (options : ScanOptions) (firstSizes secondSizes : IterationOrder (UInt64 × List String))
    (firstGroups secondGroups : IterationOrder ((UInt64 × String) × List String))
    (root : List UInt8) (walk : Walk)
    (uncapped : (((scanWalk table probes options root walk).bySize.filter fun group =>
      1 < group.2.length).map fun group => group.2.length).sum ≤ options.maxHashFiles) :
    let first := (scan table probes options firstSizes firstGroups root walk).duplicateEstimate
    let second := (scan table probes options secondSizes secondGroups root walk).duplicateEstimate
    first.Agrees second ∧ first.shown.Pairwise Before := by
  intro first second
  rw [bySize_scanWalk] at uncapped
  simp only [first, second, duplicateEstimate_scan]
  split
  · exact ⟨estimateDuplicates_agrees firstSizes secondSizes firstGroups secondGroups uncapped,
      pairwise_shown firstSizes firstGroups⟩
  · exact ⟨⟨rfl, rfl, rfl, rfl, rfl, rfl, rfl⟩, List.Pairwise.nil⟩

def twoPairsProbes : Probes where
  isMatch _ _ := false
  mimeType _ := none
  quickHash path := some (String.ofList (path.toList.take 1))

theorem estimate_does_not_depend_on_map_order_two_pairs :
    let estimate := fun order groups =>
      (scan asciiCase twoPairsProbes ⟨false, true, 4⟩ order groups (utf8Bytes "/data")
        twoPairs).duplicateEstimate
    (estimate insertionOrder reverseOrder).Agrees (estimate reverseOrder insertionOrder) :=
  (estimate_does_not_depend_on_map_order asciiCase twoPairsProbes ⟨false, true, 4⟩ insertionOrder
    reverseOrder reverseOrder insertionOrder (utf8Bytes "/data") twoPairs
    (by rw [bySize_scanWalk]; decide +kernel)).1

end AntiEntropator.Profile

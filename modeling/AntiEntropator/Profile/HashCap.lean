import AntiEntropator.Capped
import AntiEntropator.Profile.Walk

/-!
# The hash cap

The two nested loops over the size candidates try the candidate files in order
until the cap is reached.  Everything the estimate counts follows from the list
of files that were tried.
-/

namespace AntiEntropator.Profile

open Capped Grouping

def candidateFiles (candidates : List (UInt64 × List String)) : List (UInt64 × String) :=
  ungroup candidates

def hashable (quickHash : String → Option String) (file : UInt64 × String) : Bool :=
  (quickHash file.2).isSome

/-- The key a hashed file is grouped under, and its path. -/
def hashedItem? (quickHash : String → Option String) (file : UInt64 × String) :
    Option ((UInt64 × String) × String) :=
  (quickHash file.2).map fun hash => ((file.1, hash), file.2)

/-- The loop has tried exactly these files. -/
structure Examined (quickHash : String → Option String) (files : List (UInt64 × String))
    (progress : HashProgress) : Prop where
  groups : progress.groups = group (files.filterMap (hashedItem? quickHash))
  hashed : progress.filesHashed = files.countP (hashable quickHash)
  total : progress.filesHashed + progress.hashErrors = files.length
  examined : progress.examined = files.map Prod.snd

variable {quickHash : String → Option String}

theorem Examined.examine {files : List (UInt64 × String)} {progress : HashProgress}
    (examined : Examined quickHash files progress) (file : UInt64 × String) :
    Examined quickHash (files ++ [file]) (progress.examine quickHash file.1 file.2) := by
  obtain ⟨groups, hashed, total, paths⟩ := examined
  cases outcome : quickHash file.2 with
  | some hash =>
      refine ⟨?_, ?_, ?_, ?_⟩
      · simp [HashProgress.examine, hashedItem?, outcome, groups, group_snoc]
      · simp [HashProgress.examine, hashable, outcome, hashed]
      · simp only [HashProgress.examine, outcome, List.length_append, List.length_singleton]
        omega
      · simp [HashProgress.examine, outcome, paths]
  | none =>
      refine ⟨?_, ?_, ?_, ?_⟩
      · simp [HashProgress.examine, hashedItem?, outcome, groups]
      · simp [HashProgress.examine, hashable, outcome, hashed]
      · simp only [HashProgress.examine, outcome, List.length_append, List.length_singleton]
        omega
      · simp [HashProgress.examine, outcome, paths]

theorem Examined.hashPaths {files : List (UInt64 × String)} {progress : HashProgress}
    (examined : Examined quickHash files progress) (cap : Nat) (size : UInt64)
    (paths : List String) :
    Examined quickHash (files ++ attempted (hashable quickHash)
      (cap - files.countP (hashable quickHash)) (paths.map fun path => (size, path)))
      (Profile.hashPaths quickHash cap size paths progress) := by
  induction paths generalizing files progress with
  | nil => simpa [Profile.hashPaths] using examined
  | cons path paths inductionHypothesis =>
      rw [Profile.hashPaths, examined.hashed, List.map_cons]
      split
      next reached =>
        rw [Nat.sub_eq_zero_of_le reached, attempted_zero, List.append_nil]
        exact examined
      next below =>
        rw [attempted_cons _ (by omega)]
        have step := inductionHypothesis (examined.examine (size, path))
        rw [List.append_assoc, List.singleton_append, List.countP_append,
          List.countP_singleton] at step
        cases outcome : hashable quickHash (size, path) with
        | true => simpa [outcome, Nat.sub_sub] using step
        | false => simpa [outcome] using step

theorem Examined.hashCandidates {files : List (UInt64 × String)} {progress : HashProgress}
    (examined : Examined quickHash files progress) (cap : Nat)
    (candidates : List (UInt64 × List String)) :
    Examined quickHash (files ++ attempted (hashable quickHash)
      (cap - files.countP (hashable quickHash)) (candidateFiles candidates))
      (Profile.hashCandidates quickHash cap candidates progress) := by
  induction candidates generalizing files progress with
  | nil => simpa [Profile.hashCandidates, candidateFiles, ungroup] using examined
  | cons candidate candidates inductionHypothesis =>
      obtain ⟨size, paths⟩ := candidate
      have inner := examined.hashPaths cap size paths
      have split : candidateFiles ((size, paths) :: candidates) =
          paths.map (fun path => (size, path)) ++ candidateFiles candidates := by
        simp [candidateFiles, ungroup]
      rw [Profile.hashCandidates, split, attempted_append, ← List.append_assoc]
      split
      next reached =>
        rw [inner.hashed, List.countP_append, Nat.add_comm] at reached
        rw [Nat.sub_eq_zero_of_le (Nat.sub_le_of_le_add reached), attempted_zero, List.append_nil]
        exact inner
      next =>
        have outer := inductionHypothesis inner
        rwa [List.countP_append, ← Nat.sub_sub] at outer

theorem examined_candidates (quickHash : String → Option String) (cap : Nat)
    (candidates : List (UInt64 × List String)) :
    Examined quickHash (attempted (hashable quickHash) cap (candidateFiles candidates))
      (hashCandidates quickHash cap candidates ⟨[], 0, 0, []⟩) := by
  have start : Examined quickHash [] ⟨[], 0, 0, []⟩ := ⟨rfl, rfl, rfl, rfl⟩
  simpa using start.hashCandidates cap candidates

/-! ## The accounting -/

theorem length_candidateFiles (candidates : List (UInt64 × List String)) :
    (candidateFiles candidates).length = (candidates.map fun group => group.2.length).sum := by
  simp [candidateFiles, ungroup, List.length_flatMap]

theorem confirmedGroups_perm (groupOrder : IterationOrder ((UInt64 × String) × List String))
    (groups : List ((UInt64 × String) × List String)) :
    (confirmedGroups groupOrder groups).Perm (groups.filter fun group => 1 < group.2.length) :=
  (List.mergeSort_perm _ _).trans ((groupOrder.perm groups).filter _)

theorem sizeCandidates_perm (sizeOrder : IterationOrder (UInt64 × List String))
    (bySize : List (UInt64 × List String)) : (sizeCandidates sizeOrder bySize).Perm
      (bySize.filter fun group => 1 < group.2.length) :=
  (sizeOrder.perm bySize).filter _

/-- "X (cap Y)" plus, only when candidates were skipped, how many the cap left
unexamined. -/
def filesExaminedValue (estimate : DuplicateEstimate) : String :=
  toString estimate.filesHashed ++
    (match estimate.hashCap with
    | some cap => " (cap " ++ toString cap ++ ")"
    | none => "") ++
    if 0 < estimate.filesNotExamined then
      "; cap reached, " ++ toString estimate.filesNotExamined ++ " size candidate(s) not examined"
    else ""

theorem append_ne_self {text suffix : String} (nonempty : suffix ≠ "") : text ++ suffix ≠ text := by
  intro same
  apply nonempty
  have lengths := congrArg String.length same
  rw [String.length_append] at lengths
  exact String.length_eq_zero_iff.mp (by omega)

/-- The cap is accounted for: what was hashed stays below it, every candidate was
hashed, failed or skipped, and files are skipped only at the cap; the report
mentions the cap exactly when it mattered. -/
structure Accounted (quickHash : String → Option String) (cap : Nat)
    (sizeOrder : IterationOrder (UInt64 × List String)) (bySize : List (UInt64 × List String))
    (estimate : DuplicateEstimate) : Prop where
  within : estimate.filesHashed ≤ cap
  complete : estimate.filesHashed + estimate.hashErrors + estimate.filesNotExamined =
    ((bySize.filter fun group => 1 < group.2.length).map fun group => group.2.length).sum
  reached : 0 < estimate.filesNotExamined → estimate.filesHashed = cap
  reported : filesExaminedValue estimate =
      toString estimate.filesHashed ++ (" (cap " ++ toString cap ++ ")") ↔
    (hashCandidates quickHash cap (sizeCandidates sizeOrder bySize) ⟨[], 0, 0, []⟩).examined.length =
      (candidateFiles (sizeCandidates sizeOrder bySize)).length

theorem accounted (quickHash : String → Option String) (cap : Nat)
    (sizeOrder : IterationOrder (UInt64 × List String))
    (groupOrder : IterationOrder ((UInt64 × String) × List String))
    (bySize : List (UInt64 × List String)) :
    Accounted quickHash cap sizeOrder bySize
      (estimateDuplicates quickHash cap sizeOrder groupOrder bySize) := by
  generalize counted : estimateDuplicates quickHash cap sizeOrder groupOrder bySize = estimate
  have examined := examined_candidates quickHash cap (sizeCandidates sizeOrder bySize)
  have tried := attempted_prefix (hashable quickHash) cap
    (candidateFiles (sizeCandidates sizeOrder bySize))
  have bounded := countP_attempted_le (hashable quickHash) cap
    (candidateFiles (sizeCandidates sizeOrder bySize))
  have everything :
      (attempted (hashable quickHash) cap
        (candidateFiles (sizeCandidates sizeOrder bySize))).countP (hashable quickHash) < cap →
      attempted (hashable quickHash) cap (candidateFiles (sizeCandidates sizeOrder bySize)) =
        candidateFiles (sizeCandidates sizeOrder bySize) :=
    attempted_of_countP_lt (hashable quickHash)
  have whole : (candidateFiles (sizeCandidates sizeOrder bySize)).length =
      ((bySize.filter fun group => 1 < group.2.length).map fun group => group.2.length).sum := by
    rw [length_candidateFiles]
    exact ((sizeCandidates_perm sizeOrder bySize).map _).sum_nat
  have skipped : estimate.filesNotExamined =
      (candidateFiles (sizeCandidates sizeOrder bySize)).length -
        (attempted (hashable quickHash) cap
          (candidateFiles (sizeCandidates sizeOrder bySize))).length := by
    rw [← examined.total, length_candidateFiles, ← counted]
    rfl
  have total : estimate.filesHashed + estimate.hashErrors =
      (attempted (hashable quickHash) cap
        (candidateFiles (sizeCandidates sizeOrder bySize))).length := by
    rw [← counted]
    exact examined.total
  have hashed : estimate.filesHashed =
      (attempted (hashable quickHash) cap
        (candidateFiles (sizeCandidates sizeOrder bySize))).countP (hashable quickHash) := by
    rw [← counted]
    exact examined.hashed
  have hashCap : estimate.hashCap = some cap := by
    rw [← counted]
    rfl
  have short := tried.length_le
  refine ⟨by omega, by omega, ?_, ?_⟩
  · intro remaining
    by_contra different
    rw [everything (by omega)] at skipped
    omega
  · rw [examined.examined, List.length_map]
    have text : filesExaminedValue estimate =
        toString estimate.filesHashed ++ (" (cap " ++ toString cap ++ ")") ++
          if 0 < estimate.filesNotExamined then "; cap reached, " ++
            toString estimate.filesNotExamined ++ " size candidate(s) not examined" else "" := by
      rw [filesExaminedValue, hashCap]
    rw [text]
    split
    next remaining =>
      constructor
      · intro same
        refine absurd same (append_ne_self fun empty => ?_)
        have lengths := congrArg String.length empty
        simp [String.length_append] at lengths
      · intro everything
        omega
    next nothing =>
      rw [String.append_empty]
      exact ⟨fun _ => by omega, fun _ => rfl⟩

/-! ## Files that are hashed twice -/

def hashedPaths (quickHash : String → Option String) (paths : List String) : List String :=
  paths.filter fun path => (quickHash path).isSome

end AntiEntropator.Profile

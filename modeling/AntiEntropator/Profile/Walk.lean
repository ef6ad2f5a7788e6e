import AntiEntropator.Profile.Scanner

/-!
# What the loop over the walk builds

The loop hands every file, and nothing else, to the buffer of largest files and
to the groups by size.
-/

namespace AntiEntropator.Profile

open Grouping

/-- The size and path of an entry the scanner counts as a file. -/
def regularFile? : Except WalkError DirEntry → Option (UInt64 × String)
  | .error _ => none
  | .ok entry =>
      match entry.fileType, entry.metadata with
      | .file, .ok size => some (size, OsString.toStringLossy entry.path)
      | _, _ => none

def regularFiles (walk : Walk) : List (UInt64 × String) := walk.filterMap regularFile?

/-- A regular file whose metadata was read, with its size. -/
def countedFile? : Except WalkError DirEntry → Option (DirEntry × UInt64)
  | .error _ => none
  | .ok entry =>
      match entry.fileType, entry.metadata with
      | .file, .ok size => some (entry, size)
      | _, _ => none

def countedFiles (walk : Walk) : List (DirEntry × UInt64) := walk.filterMap countedFile?

def sized (file : DirEntry × UInt64) : UInt64 × String :=
  (file.2, OsString.toStringLossy file.1.path)

theorem regularFiles_eq (walk : Walk) : regularFiles walk = (countedFiles walk).map sized := by
  unfold regularFiles countedFiles
  rw [List.map_filterMap]
  apply List.filterMap_congr
  rintro (failure | entry) -
  · rfl
  · simp only [regularFile?, countedFile?]
    cases entry.fileType <;> cases entry.metadata <;> rfl

section Walk

variable (table : CaseTable) (probes : Probes) (options : ScanOptions)

theorem duplicateEstimate_visit (state : ScanState) (item : Except WalkError DirEntry) :
    (visit table probes options state item).result.duplicateEstimate =
      state.result.duplicateEstimate := by
  cases item with
  | error failure => rfl
  | ok entry =>
      simp only [visit]
      cases entry.fileType with
      | file => cases entry.metadata <;> rfl
      | _ => rfl

/-- What one step of the loop does: visit a file, or leave the files seen alone. -/
theorem visit_cases (state : ScanState) (item : Except WalkError DirEntry) :
    (∃ entry size, regularFile? item = some (size, OsString.toStringLossy entry.path) ∧
      visit table probes options state item = visitFile table probes options state entry size) ∨
    regularFile? item = none ∧
      (visit table probes options state item).largest = state.largest ∧
      (visit table probes options state item).bySize = state.bySize := by
  cases item with
  | error failure => exact .inr ⟨rfl, rfl, rfl⟩
  | ok entry =>
      cases kind : entry.fileType with
      | file =>
          cases read : entry.metadata with
          | ok size =>
              exact .inl ⟨entry, size, by simp [regularFile?, kind, read],
                by simp [visit, kind, read]⟩
          | error message =>
              exact .inr ⟨by simp [regularFile?, kind, read],
                by simp [visit, kind, read, recordError], by simp [visit, kind, read, recordError]⟩
      | dir => exact .inr ⟨by simp [regularFile?, kind], by simp [visit, kind], by simp [visit, kind]⟩
      | symlink =>
          exact .inr ⟨by simp [regularFile?, kind], by simp [visit, kind], by simp [visit, kind]⟩
      | other =>
          exact .inr ⟨by simp [regularFile?, kind], by simp [visit, kind], by simp [visit, kind]⟩

theorem scanWalk_snoc (root : List UInt8) (walk : Walk) (item : Except WalkError DirEntry) :
    scanWalk table probes options root (walk ++ [item]) =
      visit table probes options (scanWalk table probes options root walk) item := by
  simp [scanWalk]

theorem largest_scanWalk (root : List UInt8) (walk : Walk) :
    (scanWalk table probes options root walk).largest =
      (regularFiles walk).foldl pushLargest [] := by
  induction walk using List.reverseRecOn with
  | nil => rfl
  | append_singleton walk item inductionHypothesis =>
      rw [scanWalk_snoc]
      rcases visit_cases table probes options (scanWalk table probes options root walk) item with
        ⟨entry, size, file, visited⟩ | ⟨other, unchanged, -⟩
      · rw [visited, visitFile, inductionHypothesis]
        simp [regularFiles, file]
      · rw [unchanged, inductionHypothesis]
        simp [regularFiles, other]

/-- The files that can have duplicates, if the options ask for them. -/
def sizedFiles (walk : Walk) : List (UInt64 × String) :=
  if options.detectDuplicates then (regularFiles walk).filter fun file => 0 < file.1 else []

def sizedEntries (walk : Walk) : List (DirEntry × UInt64) :=
  if options.detectDuplicates then (countedFiles walk).filter fun file => 0 < file.2 else []

theorem sizedFiles_eq (walk : Walk) :
    sizedFiles options walk = (sizedEntries options walk).map sized := by
  unfold sizedFiles sizedEntries
  split
  · rw [regularFiles_eq, List.filter_map]
    rfl
  · rfl

theorem bySize_scanWalk (root : List UInt8) (walk : Walk) :
    (scanWalk table probes options root walk).bySize = group (sizedFiles options walk) := by
  induction walk using List.reverseRecOn with
  | nil => simp [scanWalk, sizedFiles, regularFiles, group, collect]
  | append_singleton walk item inductionHypothesis =>
      rw [scanWalk_snoc]
      rcases visit_cases table probes options (scanWalk table probes options root walk) item with
        ⟨entry, size, file, visited⟩ | ⟨other, -, unchanged⟩
      · rw [visited, visitFile, inductionHypothesis]
        cases detecting : options.detectDuplicates with
        | false => simp [sizedFiles, detecting]
        | true =>
            by_cases positive : 0 < size
            · simp [sizedFiles, detecting, regularFiles, file, positive, group_snoc]
            · simp [sizedFiles, detecting, regularFiles, file, positive]
      · rw [unchanged, inductionHypothesis]
        simp [sizedFiles, regularFiles, other]

end Walk

theorem duplicateEstimate_scanWalk (table : CaseTable) (probes : Probes) (options : ScanOptions)
    (root : List UInt8) (walk : Walk) :
    (scanWalk table probes options root walk).result.duplicateEstimate = .default := by
  induction walk using List.reverseRecOn with
  | nil => rfl
  | append_singleton walk item inductionHypothesis =>
      rw [scanWalk_snoc, duplicateEstimate_visit, inductionHypothesis]

theorem duplicateEstimate_scan (table : CaseTable) (probes : Probes) (options : ScanOptions)
    (sizeOrder : IterationOrder (UInt64 × List String))
    (groupOrder : IterationOrder ((UInt64 × String) × List String)) (root : List UInt8)
    (walk : Walk) :
    (scan table probes options sizeOrder groupOrder root walk).duplicateEstimate =
      if options.detectDuplicates then
        estimateDuplicates probes.quickHash options.maxHashFiles sizeOrder groupOrder
          (group (sizedFiles options walk))
      else .default := by
  rw [← bySize_scanWalk table probes options root walk]
  unfold scan ProfileResult.finalize
  dsimp only
  split
  · rfl
  · exact duplicateEstimate_scanWalk table probes options root walk

/-- Two pairs of equal files, of four and of seven bytes. -/
def twoPairs : Walk :=
  [("a1", 4), ("a2", 4), ("b1", 7), ("b2", 7)].map fun file =>
    .ok ⟨utf8Bytes file.1, .file, .ok file.2⟩

end AntiEntropator.Profile

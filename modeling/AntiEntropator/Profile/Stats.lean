import AntiEntropator.Grouping

/-!
# Statistics for profiling

Byte counts are 64-bit and wrap; counters of files and entries cannot, since
they count elements of a walk.
-/

namespace AntiEntropator.Profile

structure GroupStats where
  count : Nat
  totalBytes : UInt64
  minBytes : UInt64
  maxBytes : UInt64
  largestPath : String
  sizes : List UInt64
  deriving DecidableEq

namespace GroupStats

def new : GroupStats where
  count := 0
  totalBytes := 0
  minBytes := 0xFFFFFFFFFFFFFFFF
  maxBytes := 0
  largestPath := ""
  sizes := []

def add (stats : GroupStats) (size : UInt64) (path : String) : GroupStats where
  count := stats.count + 1
  totalBytes := stats.totalBytes + size
  minBytes := if size < stats.minBytes then size else stats.minBytes
  maxBytes := if stats.maxBytes < size then size else stats.maxBytes
  largestPath := if stats.maxBytes < size then path else stats.largestPath
  sizes := stats.sizes ++ [size]

/-- Finalize `minBytes` if no files were added. -/
def finalize (stats : GroupStats) : GroupStats :=
  if stats.count = 0 then { stats with minBytes := 0 } else stats

end GroupStats

structure DuplicateGroup where
  count : Nat
  sizeBytes : UInt64
  samplePaths : List String
  deriving DecidableEq

/-- An estimate from file sizes and a quick hash of at most `hashCap` files. -/
structure DuplicateEstimate where
  /-- Groups with same file size. -/
  sizeCandidateGroups : Nat
  /-- Groups whose quick hash also matches. -/
  quickhashConfirmedGroups : Nat
  filesHashed : Nat
  hashCap : Option Nat
  /-- Size-candidate files the quick hash did not look at because of the cap. -/
  filesNotExamined : Nat
  hashErrors : Nat
  /-- Sum over candidate groups of `(count - 1) * size`. -/
  reclaimableBytes : UInt64
  topGroups : List DuplicateGroup
  deriving DecidableEq

def DuplicateEstimate.default : DuplicateEstimate where
  sizeCandidateGroups := 0
  quickhashConfirmedGroups := 0
  filesHashed := 0
  hashCap := none
  filesNotExamined := 0
  hashErrors := 0
  reclaimableBytes := 0
  topGroups := []

structure ProfileError where
  path : String
  error : String
  deriving DecidableEq

structure ProfileResult where
  path : String
  fileCount : Nat
  dirCount : Nat
  symlinkCount : Nat
  totalBytes : UInt64
  zeroByteCount : Nat
  byExtension : List (String × GroupStats)
  byMime : List (String × GroupStats)
  byCategory : List (String × GroupStats)
  largestFiles : List (UInt64 × String)
  noExtensionExamples : List String
  namePatterns : List (String × Nat)
  duplicateEstimate : DuplicateEstimate
  errors : List ProfileError
  deriving DecidableEq

/-- `sort_by_key(|entry| Reverse(entry.0))`: stable, largest first. -/
def largestFirst (first second : UInt64 × String) : Bool := second.1 ≤ first.1

namespace ProfileResult

def new (path : String) : ProfileResult where
  path := path
  fileCount := 0
  dirCount := 0
  symlinkCount := 0
  totalBytes := 0
  zeroByteCount := 0
  byExtension := []
  byMime := []
  byCategory := []
  largestFiles := []
  noExtensionExamples := []
  namePatterns := []
  duplicateEstimate := .default
  errors := []

def finalizeGroups (groups : List (String × GroupStats)) : List (String × GroupStats) :=
  groups.map fun group => (group.1, group.2.finalize)

def finalize (result : ProfileResult) : ProfileResult :=
  { result with
    byExtension := finalizeGroups result.byExtension
    byMime := finalizeGroups result.byMime
    byCategory := finalizeGroups result.byCategory
    largestFiles := (result.largestFiles.mergeSort largestFirst).take 15 }

end ProfileResult

end AntiEntropator.Profile

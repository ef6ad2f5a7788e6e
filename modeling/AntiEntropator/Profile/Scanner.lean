import AntiEntropator.Domain.Category
import AntiEntropator.Domain.Walk
import AntiEntropator.Profile.Stats

/-!
# Directory scanner for profiling

One loop over the walk fills the statistics and groups the files by size; the
files that share their size are then quick-hashed, up to a cap.  Hash maps
iterate in an order of their own, so the two maps that are iterated come with
an order each.
-/

namespace AntiEntropator.Profile

open Grouping

structure ScanOptions where
  detectMime : Bool
  detectDuplicates : Bool
  maxHashFiles : Nat

/-- What the scanner learns from third-party crates and from the files. -/
structure Probes where
  /-- `Regex::new(pattern).is_match(text)`. -/
  isMatch : String → String → Bool
  /-- `infer::get_from_path`. -/
  mimeType : List UInt8 → Option String
  /-- `quick_sha256(path, 64 * 1024)`, if it succeeds. -/
  quickHash : String → Option String

structure IterationOrder (Entry : Type) where
  arrange : List Entry → List Entry
  perm : ∀ entries, (arrange entries).Perm entries

def insertionOrder {Entry : Type} : IterationOrder Entry := ⟨id, fun _ => .refl _⟩

def reverseOrder {Entry : Type} : IterationOrder Entry := ⟨List.reverse, List.reverse_perm⟩

def namePatterns : List (String × String) :=
  [("screenshot", "(?i)^screenshot\\b"),
    ("download", "(?i)^download(\\s*\\(\\d+\\))?(\\b|\\.)"),
    ("untitled", "(?i)^untitled(\\b|\\.)"),
    ("image_generic", "(?i)^(img|image|photo)[-_ ]?\\d+"),
    ("video_generic", "(?i)^(vid|video)[-_ ]?\\d+"),
    ("uuid_like",
      "(?i)^[0-9a-f]\x7b8\x7d-[0-9a-f]\x7b4\x7d-[0-9a-f]\x7b4\x7d-[0-9a-f]\x7b4\x7d-[0-9a-f]\x7b12\x7d"),
    ("long_hex", "(?i)^[0-9a-f]\x7b20,\x7d"),
    ("querystring_like", ".*[?&]=.+"),
    ("numbered_suffix", "[-_ ]\\(\\d+\\)\\.[^.]+$")]

def checkPatterns (probes : Probes) (filename : String) : List String :=
  (namePatterns.filter fun entry => probes.isMatch entry.2 filename).map Prod.fst

/-- Get file extension, handling compound extensions. -/
def getExtension (table : CaseTable) (filename : String) : String :=
  let lower := table.toLowercase filename
  match [".tar.gz", ".tar.bz2", ".tar.xz", ".tar.zst", ".tar.br"].find? (endsWithText lower) with
  | some compound => compound
  | none =>
      match Path.extension (utf8Bytes filename) with
      | some extension => "." ++ table.toLowercase extension.toStringLossy
      | none => "(none)"

structure ScanState where
  result : ProfileResult
  bySize : List (UInt64 × List String)
  largest : List (UInt64 × String)

def maxLargest : Nat := 50

/-- Track a file in the buffer of largest files, which is cut from time to time. -/
def pushLargest (largest : List (UInt64 × String)) (file : UInt64 × String) :
    List (UInt64 × String) :=
  let pushed := largest ++ [file]
  if maxLargest * 2 < pushed.length then (pushed.mergeSort largestFirst).take maxLargest
  else pushed

/-- `entry(key).or_default().add(size, path)`. -/
def addTo (key : String) (size : UInt64) (path : String) (groups : List (String × GroupStats)) :
    List (String × GroupStats) :=
  upsert GroupStats.new (fun stats => stats.add size path) key groups

section Scan

variable (table : CaseTable) (probes : Probes) (options : ScanOptions)

def visitFile (state : ScanState) (entry : DirEntry) (size : UInt64) : ScanState :=
  let path := OsString.toStringLossy entry.path
  let filename := entry.fileName.toStringLossy
  let extension := getExtension table filename
  let category := FileCategory.classify table extension none
  let mime := if options.detectMime then probes.mimeType entry.path else none
  let result := state.result
  { result :=
      { result with
        fileCount := result.fileCount + 1
        totalBytes := result.totalBytes + size
        zeroByteCount := if size = 0 then result.zeroByteCount + 1 else result.zeroByteCount
        byExtension := addTo extension size path result.byExtension
        byCategory := addTo category.toText size path result.byCategory
        byMime := match mime with
          | some mime => addTo mime size path result.byMime
          | none => result.byMime
        noExtensionExamples :=
          if extension = "(none)" ∧ result.noExtensionExamples.length < 20 then
            result.noExtensionExamples ++ [path]
          else result.noExtensionExamples
        namePatterns := (checkPatterns probes filename).foldl
          (fun counts pattern => upsert 0 (· + 1) pattern counts) result.namePatterns }
    bySize :=
      if options.detectDuplicates ∧ 0 < size then
        upsert [] (fun paths => paths ++ [path]) size state.bySize
      else state.bySize
    largest := pushLargest state.largest (size, path) }

def recordError (state : ScanState) (error : ProfileError) : ScanState :=
  { state with result := { state.result with errors := state.result.errors ++ [error] } }

def visit (state : ScanState) : Except WalkError DirEntry → ScanState
  | .error failure =>
      recordError state ⟨(failure.path.map OsString.toStringLossy).getD "", failure.message⟩
  | .ok entry =>
      match entry.fileType with
      | .symlink =>
          { state with result := { state.result with
              symlinkCount := state.result.symlinkCount + 1 } }
      | .dir => { state with result := { state.result with dirCount := state.result.dirCount + 1 } }
      | .file =>
          match entry.metadata with
          | .ok size => visitFile table probes options state entry size
          | .error message => recordError state ⟨OsString.toStringLossy entry.path, message⟩
      | .other => state

def scanWalk (root : List UInt8) (walk : Walk) : ScanState :=
  walk.foldl (visit table probes options) ⟨.new (OsString.toStringLossy root), [], []⟩

end Scan

/-! ## Duplicate estimation -/

/-- What the quick-hash loop has done so far.  The source keeps no list of the
paths it passed to `quick_sha256`; it is here to speak about them. -/
structure HashProgress where
  groups : List ((UInt64 × String) × List String)
  filesHashed : Nat
  hashErrors : Nat
  examined : List String

def HashProgress.examine (quickHash : String → Option String) (progress : HashProgress)
    (size : UInt64) (path : String) : HashProgress :=
  match quickHash path with
  | some hash =>
      { progress with
        groups := upsert [] (fun paths => paths ++ [path]) (size, hash) progress.groups
        filesHashed := progress.filesHashed + 1
        examined := progress.examined ++ [path] }
  | none =>
      { progress with
        hashErrors := progress.hashErrors + 1
        examined := progress.examined ++ [path] }

def hashPaths (quickHash : String → Option String) (cap : Nat) (size : UInt64) :
    List String → HashProgress → HashProgress
  | [], progress => progress
  | path :: paths, progress =>
      if cap ≤ progress.filesHashed then progress
      else hashPaths quickHash cap size paths (progress.examine quickHash size path)

def hashCandidates (quickHash : String → Option String) (cap : Nat) :
    List (UInt64 × List String) → HashProgress → HashProgress
  | [], progress => progress
  | (size, paths) :: candidates, progress =>
      let after := hashPaths quickHash cap size paths progress
      if cap ≤ after.filesHashed then after else hashCandidates quickHash cap candidates after

/-- `confirmed.sort_by`: by count and then by size, descending. -/
def countThenSize (first second : (UInt64 × String) × List String) : Bool :=
  second.2.length < first.2.length ∨
    second.2.length = first.2.length ∧ second.1.1 ≤ first.1.1

/-- What a candidate group adds to the reclaimable bytes. -/
def groupBytes (group : (UInt64 × String) × List String) : UInt64 :=
  (UInt64.ofNat group.2.length - 1) * group.1.1

/-- Groups of files that share their size. -/
def sizeCandidates (sizeOrder : IterationOrder (UInt64 × List String))
    (bySize : List (UInt64 × List String)) : List (UInt64 × List String) :=
  (sizeOrder.arrange bySize).filter fun group => 1 < group.2.length

/-- Groups of files that share their size and quick hash, largest groups first. -/
def confirmedGroups (groupOrder : IterationOrder ((UInt64 × String) × List String))
    (groups : List ((UInt64 × String) × List String)) :
    List ((UInt64 × String) × List String) :=
  ((groupOrder.arrange groups).filter fun group => 1 < group.2.length).mergeSort countThenSize

def estimateDuplicates (quickHash : String → Option String) (cap : Nat)
    (sizeOrder : IterationOrder (UInt64 × List String))
    (groupOrder : IterationOrder ((UInt64 × String) × List String))
    (bySize : List (UInt64 × List String)) : DuplicateEstimate :=
  let candidates := sizeCandidates sizeOrder bySize
  let progress := hashCandidates quickHash cap candidates ⟨[], 0, 0, []⟩
  let candidateFiles := (candidates.map fun group => group.2.length).sum
  let confirmed := confirmedGroups groupOrder progress.groups
  { sizeCandidateGroups := candidates.length
    quickhashConfirmedGroups := confirmed.length
    filesHashed := progress.filesHashed
    hashCap := some cap
    filesNotExamined := candidateFiles - (progress.filesHashed + progress.hashErrors)
    hashErrors := progress.hashErrors
    reclaimableBytes := confirmed.foldl (fun bytes group => bytes + groupBytes group) 0
    topGroups := (confirmed.take 10).map fun group =>
      ⟨group.2.length, group.1.1, group.2.take 5⟩ }

def scan (table : CaseTable) (probes : Probes) (options : ScanOptions)
    (sizeOrder : IterationOrder (UInt64 × List String))
    (groupOrder : IterationOrder ((UInt64 × String) × List String))
    (root : List UInt8) (walk : Walk) : ProfileResult :=
  let state := scanWalk table probes options root walk
  let result := { state.result with
    largestFiles := (state.largest.mergeSort largestFirst).take 15 }
  let estimated :=
    if options.detectDuplicates then
      { result with
        duplicateEstimate := estimateDuplicates probes.quickHash options.maxHashFiles sizeOrder
          groupOrder state.bySize }
    else result
  estimated.finalize

end AntiEntropator.Profile

import AntiEntropator.Grouping
import AntiEntropator.Profile.Scanner
import AntiEntropator.Scan.File

/-!
# The scan command

`run`: the loop over the walk with its limit, and what the summary says of the
files that were scanned.
-/

namespace AntiEntropator.Scan

open Grouping

/-- An entry of the walk below a canonical root. -/
structure FoundEntry where
  path : PathBuf
  isFile : Bool

abbrev FoundWalk := List (Except WalkError FoundEntry)

structure ScanState where
  scanned : List FileInfo
  errors : List String

/-- `"{path}: {error}"` for an entry that cannot be read. -/
def walkErrorText (failure : WalkError) : String :=
  (failure.path.map OsString.toStringLossy).getD "" ++ ": " ++ failure.message

def fileErrorText (path : PathBuf) (error : Error) : String :=
  path.display ++ ": " ++ error.display

section Loop

variable (environment : PathBuf → Environment) (limit : Option Nat)

/-- The loop over the walk: files that fail do not count to the limit. -/
def scanLoop : FoundWalk → ScanState → ScanState
  | [], state => state
  | item :: rest, state =>
      if limit.any fun limit => limit ≤ state.scanned.length then state
      else
        match item with
        | .error failure =>
            scanLoop rest { state with errors := state.errors ++ [walkErrorText failure] }
        | .ok entry =>
            if entry.isFile then
              match scanFile (environment entry.path) entry.path with
              | .ok info => scanLoop rest { state with scanned := state.scanned ++ [info] }
              | .error error =>
                  scanLoop rest { state with
                    errors := state.errors ++ [fileErrorText entry.path error] }
            else scanLoop rest state

end Loop

/-! ## The summary -/

def countCategories (scanned : List FileInfo) : List (FileCategory × Nat × UInt64) :=
  collect (0, 0) (fun entry size => (entry.1 + 1, entry.2 + UInt64.ofNat size))
    (scanned.map fun info => (info.category, info.sizeBytes))

/-- `sort_by_key(|entry| Reverse(entry.1.1))`: stable, most bytes first. -/
def mostBytes (first second : FileCategory × Nat × UInt64) : Bool := second.2.2 ≤ first.2.2

structure ScanSummary where
  /-- Files found, and of these the ones to scan. -/
  totalFiles : Nat
  fileCount : Nat
  scanned : List FileInfo
  errors : List String
  categories : List (FileCategory × Nat × UInt64)
  /-- At most ten files with a better name, and how many more there are. -/
  suggestions : List FileInfo
  moreSuggestions : Nat
  duplicates : Nat

def withSuggestions (scanned : List FileInfo) : List FileInfo :=
  scanned.filter fun info => info.suggestedName.isSome

def regularFiles (walk : FoundWalk) : FoundWalk :=
  walk.filter fun item => item.toOption.any FoundEntry.isFile

section Run

variable (environment : PathBuf → Environment) (limit : Option Nat)
  (order : Profile.IterationOrder (FileCategory × Nat × UInt64))

/-- The summary of a scan; the files are counted in a walk of its own. -/
def summarize (counted walk : FoundWalk) : ScanSummary :=
  let totalFiles := (regularFiles counted).length
  let state := scanLoop environment limit walk ⟨[], []⟩
  { totalFiles
    fileCount := (limit.map fun limit => min limit totalFiles).getD totalFiles
    scanned := state.scanned
    errors := state.errors
    categories := (order.arrange (countCategories state.scanned)).mergeSort mostBytes
    suggestions := (withSuggestions state.scanned).take 10
    moreSuggestions := (withSuggestions state.scanned).length - 10
    duplicates := (state.scanned.filter fun info => info.isDuplicate).length }

def ScanSummary.result (summary : ScanSummary) : Except Error Unit :=
  if summary.errors = [] then .ok ()
  else .error (.msg ("scan incomplete: " ++ toString summary.errors.length ++ " files failed"))

/-- What the path that was given turns out to be. -/
inductive Root where
  | missing (display : String)
  | notDirectory (display : String)
  | directory (counted walk : FoundWalk)

/-- Run the scan command: its summary, if it gets to one, and its result. -/
def run : Root → Option ScanSummary × Except Error Unit
  | .missing display => (none, .error (.msg ("Path does not exist: " ++ display)))
  | .notDirectory display => (none, .error (.msg ("Path is not a directory: " ++ display)))
  | .directory counted walk =>
      let summary := summarize environment limit order counted walk
      (some summary, summary.result)

end Run

end AntiEntropator.Scan

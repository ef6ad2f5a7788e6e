import AntiEntropator.Domain.Error
import AntiEntropator.Domain.FileInfo

/-!
# Ingest summary

Mode, counts and the summary document, and how the command's result is
computed from them.
-/

namespace AntiEntropator.Ingest

/-- How an ingest invocation is allowed to interact with the lakehouse. -/
inductive IngestMode where
  | dryRunOffline
  | dryRun
  | ingest
  deriving DecidableEq

namespace IngestMode

def fromFlags (dryRun offline : Bool) : IngestMode :=
  match dryRun, offline with
  | false, _ => .ingest
  | true, true => .dryRunOffline
  | true, false => .dryRun

def isConnected (mode : IngestMode) : Bool := mode ≠ .dryRunOffline

def writes (mode : IngestMode) : Bool := mode = .ingest

theorem isConnected_of_writes {mode : IngestMode} (writes : mode.writes = true) :
    mode.isConnected = true := by
  cases mode with
  | ingest | dryRun => rfl
  | dryRunOffline => cases writes

/-- Flags that switch this preview mode off; `none` for a real ingest. -/
def previewFlags : IngestMode → Option String
  | .dryRunOffline => some "--dry-run --offline"
  | .dryRun => some "--dry-run"
  | .ingest => none

end IngestMode

inductive IngestStatus where
  | success
  | incomplete
  | commitFailed
  deriving DecidableEq

inductive CatalogCommitStatus where
  | notAttempted
  | succeeded
  | failed
  deriving DecidableEq

/-- Per-run tallies on two independent axes: paths and blobs. -/
structure IngestCounts where
  candidates : Nat := 0
  observed : Nat := 0
  unchanged : Nat := 0
  uploaded : Nat := 0
  alreadyExists : Nat := 0
  bytes : UInt64 := 0
  skipped : Nat := 0
  deriving DecidableEq

structure CommitCounts where
  committed : Nat := 0
  batchesCommitted : Nat := 0
  batchesFailed : Nat := 0
  deriving DecidableEq

def CommitCounts.status (counts : CommitCounts) : CatalogCommitStatus :=
  if 0 < counts.batchesFailed then .failed
  else if 0 < counts.batchesCommitted then .succeeded
  else .notAttempted

structure IngestSummary where
  formatVersion : Nat
  mode : IngestMode
  runId : Uuid
  sourceId : String
  status : IngestStatus
  counts : IngestCounts
  failed : Nat
  catalogCommit : CatalogCommitStatus
  commit : CommitCounts
  errors : List String
  deriving DecidableEq

def ingestSummaryFormatVersion : Nat := 4

namespace IngestSummary

def build (mode : IngestMode) (runId : Uuid) (sourceId : String) (counts : IngestCounts)
    (commit : CommitCounts) (errors : List String) : IngestSummary :=
  let failed := errors.length
  let catalogCommit := commit.status
  { formatVersion := ingestSummaryFormatVersion
    mode, runId, sourceId
    status :=
      if catalogCommit = .failed then .commitFailed
      else if 0 < failed then .incomplete
      else .success
    counts, failed, catalogCommit, commit, errors }

/-- Rows this run produced but did not get into the catalog. -/
def uncommittedRows (summary : IngestSummary) : Nat :=
  summary.counts.observed - summary.commit.committed

end IngestSummary

/-! ## The operator report -/

def commitFailedLine (batch rows : Nat) : String :=
  "  Commit failed:   batch " ++ toString batch ++ "; " ++ toString rows ++ " rows not acknowledged"

def countLines (formatSize : UInt64 → String) (summary : IngestSummary) : List String :=
  let c := summary.counts
  let k := summary.commit
  let bytes := formatSize c.bytes
  if summary.mode.writes then
    ["  Observed:        " ++ toString c.observed ++ " paths (catalog rows appended)",
      "  Unchanged:       " ++ toString c.unchanged ++ " paths (already in catalog)",
      "  Uploaded:        " ++ toString c.uploaded ++ " blobs (" ++ bytes ++ ")",
      "  Already in store: " ++ toString c.alreadyExists ++ " blobs",
      "  Committed:       " ++ toString k.committed ++ " rows in " ++
        toString k.batchesCommitted ++ " batch(es)"] ++
    (if 0 < k.batchesFailed then
      [commitFailedLine (k.batchesCommitted + 1) summary.uncommittedRows] else []) ++
    (if 0 < c.skipped then
      ["  Not started:     " ++ toString c.skipped ++ " files (run stopped)"] else [])
  else if summary.mode.isConnected then
    ["  Would observe:   " ++ toString c.observed ++ " paths (catalog rows)",
      "  Unchanged:       " ++ toString c.unchanged ++ " paths (already in catalog)",
      "  Would upload:    " ++ toString c.uploaded ++ " blobs (" ++ bytes ++ ")",
      "  Already in store: " ++ toString c.alreadyExists ++ " blobs"]
  else
    ["  Would observe:   " ++ toString c.observed ++ " paths (catalog not read)",
      "  Unchanged:       not checked (--offline)",
      "  Would upload:    " ++ toString c.uploaded ++ " blobs (" ++ bytes ++ ")",
      "  Already in store: not checked (--offline)"]

/-- At most five errors are listed. -/
def errorLines (errors : List String) : List String :=
  if errors = [] then []
  else
    ["  Errors:"] ++ (errors.take 5).map ("    - " ++ ·) ++
    (if 5 < errors.length then
      ["    ... and " ++ toString (errors.length - 5) ++ " more"] else []) ++
    [""]

def closingLines (summary : IngestSummary) : List String :=
  match summary.status, summary.mode.previewFlags with
  | .success, some flags | .incomplete, some flags =>
      ["  Dry run - no files were uploaded. Remove " ++ flags ++ " to actually ingest.", ""]
  | .success, none =>
      ["  Files ingested successfully!", "", "  Next steps:",
        "    1. Run `anti_entropator query` to explore your catalog",
        "    2. Group duplicate content: SELECT content_hash, COUNT(*) FROM files " ++
          "GROUP BY content_hash HAVING COUNT(*) > 1", ""]
  | .incomplete, none => ["  Ingest incomplete: one or more files failed.", ""]
  | .commitFailed, _ =>
      ["  Ingest incomplete: metadata commit failed after " ++
          toString summary.commit.batchesCommitted ++ " acknowledged batch(es).",
        "  Up to " ++ toString summary.uncommittedRows ++
          " observed row(s) may be missing from the catalog; " ++
          toString summary.counts.skipped ++ " file(s) were not started.",
        "  The failed batch may still have landed. Uploaded blobs are safe. Re-run the same",
        "  ingest: it records what the catalog holds for this run and observes the rest.", ""]

/-- The lines of the report, without their colours; sizes are formatted by a
library. -/
def printHumanReport (formatSize : UInt64 → String) (summary : IngestSummary) : List String :=
  ["", "─── Ingest Results ─────────────────────────────────────────────", ""] ++
  countLines formatSize summary ++
  ["  Errors:          " ++ toString summary.failed ++ " files",
    "  Run:             " ++ summary.runId.display,
    "  Source:          " ++ summary.sourceId, ""] ++
  errorLines summary.errors ++ closingLines summary

/-! ## The command's result -/

/-- The command's result.  `commitFailure` is the error of the batch that
stopped the run, if any. -/
def outcomeError (summary : IngestSummary) (commitFailure : Option Error) : Except Error Unit :=
  match commitFailure with
  | some error => .error (error.context "metadata commit failed")
  | none =>
      if 0 < summary.failed then
        if summary.mode.writes then
          .error (Error.msg ("ingest incomplete: " ++ toString summary.failed ++
            " file(s) failed"))
        else
          .error (Error.msg ("ingest preview incomplete: " ++ toString summary.failed ++
            " file(s) failed"))
      else .ok ()

/-- Print the summary (assumed to succeed) and determine the command outcome. -/
def finalizeIngest (summary : IngestSummary) (commitFailure : Option Error) : Except Error Unit :=
  outcomeError summary commitFailure

end AntiEntropator.Ingest

import AntiEntropator.Domain.FileInfo

/-!
# The file catalog

Rows of the append-only observation table, how the writer fills them from file
records, and the two queries ingest asks.
-/

namespace AntiEntropator.Lakehouse

def asI64 (n : Nat) : Int := (BitVec.ofNat 64 n).toInt

theorem asI64_of_lt {n : Nat} (small : n < 2 ^ 63) : asI64 n = n := by
  unfold asI64
  rw [BitVec.toInt_eq_toNat_of_lt]
  · rw [BitVec.toNat_ofNat, Nat.mod_eq_of_lt (by omega)]
  · rw [BitVec.toNat_ofNat, Nat.mod_eq_of_lt (by omega)]
    omega

/-- One row of `file_catalog`; timestamps are microseconds. -/
structure CatalogRow where
  id : Uuid
  sourcePath : String
  filename : String
  extension : String
  mimeType : Option String
  category : String
  sizeBytes : Int
  contentHash : Option String
  partialHash : Option String
  createdAt : Option Int
  modifiedAt : Option Int
  scannedAt : Int
  objectUri : Option String
  ingestedAt : Option Int
  suggestedName : Option String
  nameReason : Option String
  isDuplicate : Bool
  duplicateOf : Option Uuid
  parentDir : String
  groupId : Option Uuid
  sourceId : Option String
  relativePath : Option String
  runId : Option Uuid
  observationStatus : Option String
  observedAt : Option Int
  deriving DecidableEq

/-- `BatchColumnsBuilder::push`: the row of one file. -/
def CatalogRow.push (info : FileInfo) : CatalogRow where
  id := info.id
  sourcePath := info.sourcePath.display
  filename := info.filename
  extension := info.extension
  mimeType := info.mimeType
  category := info.category.toText
  sizeBytes := asI64 info.sizeBytes
  contentHash := info.contentHash.map ContentHash.text
  partialHash := info.partialHash.map PartialHash.text
  createdAt := info.createdAt.map timestampMicros
  modifiedAt := info.modifiedAt.map timestampMicros
  scannedAt := timestampMicros info.scannedAt
  objectUri := info.objectUri
  ingestedAt := info.ingestedAt.map timestampMicros
  suggestedName := info.suggestedName
  nameReason := info.nameReason
  isDuplicate := info.isDuplicate
  duplicateOf := info.duplicateOf
  parentDir := info.parentDir
  groupId := info.groupId
  sourceId := info.sourceId
  relativePath := info.relativePath
  runId := info.runId
  observationStatus := info.observationStatus.map ObservationStatus.asStr
  observedAt := info.observedAt.map timestampMicros

def filesToBatch (files : List FileInfo) : List CatalogRow := files.map CatalogRow.push

/-- The rows of one run: what `count_rows_for_run` counts. -/
def countRowsForRun (catalog : List CatalogRow) (sourceId : String) (runId : Uuid) : Nat :=
  catalog.countP fun row => row.sourceId = some sourceId ∧ row.runId = some runId

end AntiEntropator.Lakehouse

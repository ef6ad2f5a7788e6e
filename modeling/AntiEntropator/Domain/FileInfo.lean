import AntiEntropator.Domain.Observation

/-!
# File information

The record a scan produces and ingest completes.  Timestamps are nanoseconds
since the epoch, as the clock reads them; the catalog keeps microseconds.
-/

namespace AntiEntropator

/-- `DateTime<Utc>`, in nanoseconds. -/
abbrev DateTime := Int

/-- `timestamp_micros`: rounds towards the past. -/
def timestampMicros (instant : DateTime) : Int := instant / 1000

inductive FileCategory where
  | image | video | audio | document | archive | code | font | data | other
  deriving DecidableEq

def FileCategory.toText : FileCategory → String
  | .image => "image"
  | .video => "video"
  | .audio => "audio"
  | .document => "document"
  | .archive => "archive"
  | .code => "code"
  | .font => "font"
  | .data => "data"
  | .other => "other"

/-- A partial hash (first bytes) for quick duplicate candidate detection. -/
structure PartialHash where
  text : String
  deriving DecidableEq

structure FileInfo where
  id : Uuid
  sourcePath : PathBuf
  filename : String
  extension : String
  mimeType : Option String
  category : FileCategory
  sizeBytes : Nat
  contentHash : Option ContentHash
  partialHash : Option PartialHash
  createdAt : Option DateTime
  modifiedAt : Option DateTime
  scannedAt : DateTime
  objectUri : Option String
  ingestedAt : Option DateTime
  suggestedName : Option String
  nameReason : Option String
  isDuplicate : Bool
  duplicateOf : Option Uuid
  parentDir : String
  groupId : Option Uuid
  sourceId : Option String
  relativePath : Option String
  runId : Option Uuid
  observationStatus : Option ObservationStatus
  observedAt : Option DateTime
  deriving DecidableEq

/-- Attach the observation identity and derive the deterministic row `id`.
The content hash must be final: the `id` incorporates it. -/
def FileInfo.withObservation (crypto : Crypto) (info : FileInfo) (sourceId relativePath : String)
    (runId : Uuid) (status : ObservationStatus) (observedAt : DateTime) : FileInfo :=
  { info with
    id := observationId crypto sourceId relativePath (info.contentHash.map ContentHash.text) status
    sourceId := some sourceId
    relativePath := some relativePath
    runId := some runId
    observationStatus := some status
    observedAt := some observedAt }

end AntiEntropator

import AntiEntropator.Ingest.Pipeline
import AntiEntropator.Ingest.State
import AntiEntropator.Ingest.Upload.Call

/-!
# Processing one file

`process_file`, with `prepare_file` and `scan_file` inlined, as a machine that
stops at each await: between two steps other workers run and files change.  A
file is stated, hashed, compared with the catalog state, verified against the
store and uploaded when missing.
-/

namespace AntiEntropator.Ingest

structure FileContext where
  root : PathBuf
  /-- There is an operator: not `--dry-run --offline`. -/
  operator : Bool
  mode : IngestMode
  runId : Uuid
  sourceId : String
  state : Option CurrentState

def sourceChangedRetries : Nat := 1

/-- Files below this size are hashed while they are scanned. -/
def inlineHashBytes : Nat := 10 * 1024 * 1024

def hashBufferBytes : Nat := 8192

/-- What a scan finds out besides size and hash: names, times, MIME type and
the findings of external tools. -/
structure ScanDetails where
  id : Uuid
  filename : String
  extension : String
  mimeType : Option String
  category : FileCategory
  partialHash : Option PartialHash
  createdAt : Option DateTime
  modifiedAt : Option DateTime
  scannedAt : DateTime
  suggestedName : Option String
  nameReason : Option String
  deriving DecidableEq

/-- The record of a scan before its full hash. -/
def FileInfo.scanned (path : PathBuf) (sizeBytes : Nat) (details : ScanDetails) : FileInfo where
  id := details.id
  sourcePath := path
  filename := details.filename
  extension := details.extension
  mimeType := details.mimeType
  category := details.category
  sizeBytes := sizeBytes
  contentHash := none
  partialHash := details.partialHash
  createdAt := details.createdAt
  modifiedAt := details.modifiedAt
  scannedAt := details.scannedAt
  objectUri := none
  ingestedAt := none
  suggestedName := details.suggestedName
  nameReason := details.nameReason
  isDuplicate := false
  duplicateOf := none
  parentDir := ""
  groupId := none
  sourceId := none
  relativePath := none
  runId := none
  observationStatus := none
  observedAt := none

/-- What `prepare_file` returns: it always sets hash and relative path. -/
structure PreparedFile where
  info : FileInfo
  contentHash : ContentHash
  relativePath : String
  contentHash_eq : info.contentHash = some contentHash
  relativePath_eq : info.relativePath = some relativePath
  deriving DecidableEq

/-- Where the worker waits. -/
inductive FilePhase where
  /-- At the stat of `scan_file`. -/
  | scanning
  /-- Hashing inside the scan. -/
  | scanHashing (info : FileInfo) (read : List UInt8)
  /-- Hashing in `prepare_file`, after the scan left no hash. -/
  | hashing (info : FileInfo) (relativePath : String) (read : List UInt8)
  /-- About to take the observation time. -/
  | observing (info : FileInfo) (relativePath : String) (hash : ContentHash)
  | verifying (prepared : PreparedFile)
  | uploading (prepared : PreparedFile) (call : UploadCall)
  /-- About to take the ingestion time. -/
  | stamping (info : FileInfo) (blob : BlobState)
  | returned (result : Except Error IngestOutcome)
  deriving DecidableEq

structure FileTask where
  path : PathBuf
  attemptsLeft : Nat := sourceChangedRetries
  phase : FilePhase := .scanning
  deriving DecidableEq

inductive FileAction where
  | scan (details : ScanDetails)
  | scanFailed (text : String)
  /-- One read of a hashing loop. -/
  | read (n : Nat)
  | readFailed (text : String)
  /-- A blocking task panics: the scan's, which also detects the MIME type, or the one that hashes. -/
  | hashPanicked (text : String)
  | observe (now : DateTime)
  | verify
  | verifyFailed (text : String)
  | upload (action : UploadAction)
  | stamp (now : DateTime)
  deriving DecidableEq

/-- `relative.parent().and_then(Path::to_str)`. -/
def parentDir? (relative : List OsString) : Option String :=
  if relative = [] then none else (relative.dropLast.mapM OsString.toStr?).map joinSlash

def objectUri (bucket : String) (hash : ContentHash) : String :=
  "s3://" ++ bucket ++ "/" ++ hash.toObjectKey

/-- `prepare_file` after the scan: path identity, then the missing hash. -/
def identify (ctx : FileContext) (info : FileInfo) : FilePhase :=
  let relative := info.sourcePath.stripPrefix ctx.root
  match normalizeRelativePath relative with
  | .error bad => .returned (.error (.ofCause (.nonUtf8Path bad)))
  | .ok relativePath =>
      let info := { info with parentDir := (parentDir? relative).getD info.parentDir }
      match info.contentHash with
      | none => .hashing info relativePath []
      | some hash => .observing info relativePath hash

/-- `scan_file` after its stat. -/
def scanned (ctx : FileContext) (info : FileInfo) : FilePhase :=
  if 0 < info.sizeBytes ∧ info.sizeBytes < inlineHashBytes then .scanHashing info []
  else identify ctx info

def PreparedFile.observe (deployment : Deployment) (ctx : FileContext) (info : FileInfo)
    (relativePath : String) (hash : ContentHash) (now : DateTime) : PreparedFile where
  info := { info with
    contentHash := some hash
    objectUri := some (objectUri deployment.bucket hash) }.withObservation deployment.crypto
      ctx.sourceId relativePath ctx.runId .present now
  contentHash := hash
  relativePath := relativePath
  contentHash_eq := rfl
  relativePath_eq := rfl

/-- The end of `process_file`, once the blob's state is known. -/
def conclude (ctx : FileContext) (prepared : PreparedFile) (blob : BlobState) : FilePhase :=
  match decide ctx.state prepared.relativePath prepared.contentHash.text with
  | .unchanged => .returned (.ok (.unchanged blob))
  | .observe =>
      if ctx.mode.writes then .stamping prepared.info blob
      else .returned (.ok (.observed prepared.info blob))

namespace FileTask

def uploaded (ctx : FileContext) (task : FileTask) (prepared : PreparedFile) :
    Except Error UploadOutcome → FileTask
  | .ok (.uploaded _) => { task with phase := conclude ctx prepared .uploaded }
  | .ok .alreadyExists => { task with phase := conclude ctx prepared .existing }
  | .error error =>
      if error.isSourceChanged ∧ 0 < task.attemptsLeft then
        { task with attemptsLeft := task.attemptsLeft - 1, phase := .scanning }
      else { task with phase := .returned (.error (error.context "upload failed after 1 retry")) }

def step (deployment : Deployment) (ctx : FileContext) (files : SourceFiles) (store : ObjectStore)
    (task : FileTask) : FileAction → Option (ObjectStore × FileTask)
  | .scan details =>
      match task.phase, files task.path with
      | .scanning, some contents => some (store, { task with
          phase := scanned ctx (FileInfo.scanned task.path contents.bytes.length details) })
      | _, _ => none
  | .scanFailed text =>
      match task.phase with
      | .scanning => some (store, { task with
          phase := .returned (.error ((Error.msg text).context "Failed to read file metadata")) })
      | _ => none
  | .read n =>
      if 0 < n ∧ n ≤ hashBufferBytes then
        match task.phase, files task.path with
        | .scanHashing info read, some contents =>
            match contents.chunk read.length n with
            | [] => some (store, { task with
                phase := identify ctx { info with
                  contentHash := some ⟨deployment.crypto.hexDigest read⟩ } })
            | byte :: rest => some (store, { task with
                phase := .scanHashing info (read ++ byte :: rest) })
        | .hashing info relativePath read, some contents =>
            match contents.chunk read.length n with
            | [] => some (store, { task with
                phase := .observing info relativePath ⟨deployment.crypto.hexDigest read⟩ })
            | byte :: rest => some (store, { task with
                phase := .hashing info relativePath (read ++ byte :: rest) })
        | _, _ => none
      else none
  | .readFailed text =>
      match task.phase with
      | .scanHashing info _ => some (store, { task with phase := identify ctx info })
      | .hashing _ _ _ => some (store, { task with phase := .returned (.error (.msg text)) })
      | _ => none
  | .hashPanicked text =>
      match task.phase, files task.path with
      -- The file was stated; this also happens to files that the scan does not hash.
      | .scanning, some _ => some (store, { task with
          phase := .returned (.error ((Error.msg text).context "Blocking I/O task panicked")) })
      | .scanHashing _ _, _ => some (store, { task with
          phase := .returned (.error ((Error.msg text).context "Blocking I/O task panicked")) })
      | .hashing _ _ _, _ => some (store, { task with
          phase := .returned (.error ((Error.msg text).context "Blocking hash task panicked")) })
      | _, _ => none
  | .observe now =>
      match task.phase with
      | .observing info relativePath hash =>
          let prepared := PreparedFile.observe deployment ctx info relativePath hash now
          some (store, { task with
            phase :=
              if ctx.operator then .verifying prepared
              else .returned (.ok (.observed prepared.info .uploaded)) })
      | _ => none
  | .verify =>
      match task.phase with
      | .verifying prepared =>
          match verifyExisting store prepared.contentHash prepared.info.sizeBytes with
          | .error error => some (store, { task with phase := .returned (.error error) })
          | .ok .verified | .ok .legacy =>
              some (store, { task with phase := conclude ctx prepared .existing })
          | .ok .missing => some (store, { task with
              phase :=
                if ctx.mode.writes then
                  .uploading prepared
                    ⟨task.path, prepared.contentHash, prepared.info.sizeBytes, {}, .stating⟩
                else conclude ctx prepared .uploaded })
      | _ => none
  | .verifyFailed text =>
      match task.phase with
      | .verifying prepared => some (store, { task with
          phase := .returned (.error ((Error.msg text).context
            ("Failed to stat " ++ prepared.contentHash.toObjectKey))) })
      | _ => none
  | .upload action =>
      match task.phase with
      | .uploading prepared call =>
          (call.step deployment files store action).map fun (store, call) =>
            match call.phase with
            | .returned result => (store, task.uploaded ctx prepared result)
            | _ => (store, { task with phase := .uploading prepared call })
      | _ => none
  | .stamp now =>
      match task.phase with
      | .stamping info blob => some (store, { task with
          phase := .returned (.ok (.observed { info with ingestedAt := some now } blob)) })
      | _ => none

/-- The task's future is ready. -/
def result? (task : FileTask) : Option (Except Error IngestOutcome) :=
  match task.phase with
  | .returned result => some result
  | _ => none

/-- The clock reading an action takes as an observation time. -/
def observationTime? : FileAction → Option DateTime
  | .observe now => some now
  | _ => none

end FileTask

end AntiEntropator.Ingest

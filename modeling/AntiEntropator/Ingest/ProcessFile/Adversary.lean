import AntiEntropator.GuardedMachine.Progress
import AntiEntropator.Ingest.ProcessFile.Row

/-!
# A file that changes while it is processed

One worker against a file system that may rewrite any file between two of its
steps, and against other workers that store blobs under their content keys.  The
worker ends, and what it returns is about its last scan only.
-/

namespace AntiEntropator.Ingest

/-- One `process_file` call and what it reads and writes. -/
structure FileRun where
  files : SourceFiles
  store : ObjectStore
  task : FileTask

inductive FileRunAction where
  | work (action : FileAction)
  /-- Somebody rewrites or removes a source file. -/
  | edit (path : PathBuf) (contents : Option Contents)
  /-- Another worker stores a blob under its content key. -/
  | create (hash : ContentHash) (object : Object)
  deriving DecidableEq

def FileRunAction.isWork : FileRunAction → Bool
  | .work _ => true
  | _ => false

inductive Finding where
  | scanned (sizeBytes : Nat) (details : ScanDetails)
  | hashed (hash : ContentHash)
  | prepared (prepared : PreparedFile)

namespace FileRun

def step (deployment : Deployment) (ctx : FileContext) (run : FileRun) :
    FileRunAction → Option FileRun
  | .work action =>
      (run.task.step deployment ctx run.files run.store action).map fun (store, task) =>
        { run with store, task }
  | .edit path contents => some { run with files := Function.update run.files path contents }
  | .create hash object =>
      if deployment.crypto.hexDigest object.bytes = hash.text then
        some { run with store := run.store.create hash.toObjectKey object }
      else none

def machine (deployment : Deployment) (ctx : FileContext) :
    GuardedMachine FileRun FileRunAction where
  step := step deployment ctx

def start (files : SourceFiles) (store : ObjectStore) (path : PathBuf) : FileRun where
  files := files
  store := store
  task := { path }

/-! ## What a run shows -/

def findings (deployment : Deployment) (ctx : FileContext) (run : FileRun) :
    FileRunAction → List Finding
  | .work (.scan details) =>
      match run.task.phase, run.files run.task.path with
      | .scanning, some contents => [.scanned contents.bytes.length details]
      | _, _ => []
  | .work (.read n) =>
      match run.task.phase, run.files run.task.path with
      | .scanHashing _ read, some contents | .hashing _ _ read, some contents =>
          if contents.chunk read.length n = [] then
            [.hashed ⟨deployment.crypto.hexDigest read⟩]
          else []
      | _, _ => []
  | .work (.observe now) =>
      match run.task.phase with
      | .observing info relativePath hash =>
          [.prepared (.observe deployment ctx info relativePath hash now)]
      | _ => []
  | _ => []

def attempts (deployment : Deployment) (ctx : FileContext) (run : FileRun)
    (action : FileRunAction) : List UploadCall :=
  match action, (run.step deployment ctx action).map fun (next : FileRun) => next.task.phase with
  | .work .verify, some (FilePhase.uploading _ call) => [call]
  | _, _ => []

def results (deployment : Deployment) (ctx : FileContext) (run : FileRun)
    (action : FileRunAction) : List (Except Error IngestOutcome) :=
  match action, run.step deployment ctx action with
  | .work _, some next => next.task.result?.toList
  | _, _ => []

/-- The blobs that other workers store. -/
def created (_ : FileRun) : FileRunAction → List Object
  | .create _ object => [object]
  | _ => []

/-- The bytes of uploads that come to their close. -/
def closingStreams (run : FileRun) : FileRunAction → List (List UInt8)
  | .work action => (run.task.closingStream? action).toList
  | _ => []

end FileRun

/-! ## The end of a run -/

def maxFileBytes : Nat := 2 ^ 63

/-- Bounds the steps an upload can still take. -/
def UploadCall.weight (call : UploadCall) : Nat :=
  let left := maxFileBytes - call.stream.actualLen
  match call.phase with
  | .stating => 2 * left + 5
  | .opening => 2 * left + 4
  | .openingWriter => 2 * left + 3
  | .reading => 2 * left + 2
  | .writing _ => 2 * left + 3
  | .closing | .aborting _ => 1
  | .returned _ => 0

def FilePhase.weight : FilePhase → Nat
  | .scanning => 4 * maxFileBytes + 12
  | .scanHashing _ read => (maxFileBytes - read.length) + 3 * maxFileBytes + 11
  | .hashing _ _ read => (maxFileBytes - read.length) + 2 * maxFileBytes + 10
  | .observing _ _ _ => 2 * maxFileBytes + 9
  | .verifying _ => 2 * maxFileBytes + 8
  | .uploading _ call => call.weight + 2
  | .stamping _ _ => 1
  | .returned _ => 0

def FileTask.weight (task : FileTask) : Nat :=
  task.attemptsLeft * (4 * maxFileBytes + 13) + task.phase.weight

namespace FileTask

variable {deployment : Deployment} {ctx : FileContext} {files : SourceFiles}
  {store store' : ObjectStore} {task task' : FileTask} {action : FileAction}

theorem offset_lt_of_chunk_ne_nil {contents : Contents} {offset n : Nat}
    (found : contents.chunk offset n ≠ []) :
    offset < maxFileBytes ∧ 0 < (contents.chunk offset n).length := by
  refine ⟨?_, List.length_pos_iff.mpr found⟩
  by_contra past
  apply found
  have ended : contents.bytes.length ≤ offset :=
    (contents.length_lt.le.trans (Nat.le_of_not_lt past))
  simp [Contents.chunk, List.drop_eq_nil_of_le ended]

theorem uploadCall_weight_step {call call' : UploadCall} {action : UploadAction}
    (stepped : call.step deployment files store action = some (store', call')) :
    call'.weight < call.weight := by
  cases UploadCall.Step.of_step stepped with
  | advance phase moved =>
      rcases moved with ⟨before, rfl⟩ | ⟨before, rfl⟩ | ⟨before, rfl⟩ <;>
        simp [UploadCall.weight, before]
  | failed error early =>
      rcases early with before | before | before <;> simp [UploadCall.weight, before]
  | read reading found positive more =>
      obtain ⟨bound, grows⟩ := offset_lt_of_chunk_ne_nil more
      simp only [UploadCall.weight, UploadCall.absorb, reading]
      omega
  | ended reading =>
      rcases UploadCall.finish_cases deployment call with ⟨actual, length, left⟩ | ⟨-, -, left⟩ <;>
        simp [left, UploadCall.weight, reading]
  | write writing => simp [UploadCall.weight, writing]
  | streamFailed error streaming =>
      rcases streaming with reading | ⟨chunk, writing⟩
      · simp [UploadCall.weight, reading]
      · simp [UploadCall.weight, writing]
  | closed closing => simp [UploadCall.weight, closing]
  | lost closing => simp [UploadCall.weight, closing]
  | closeFailed closing => simp [UploadCall.weight, closing]
  | aborted aborting => simp [UploadCall.weight, aborting]

theorem weight_identify (ctx : FileContext) (info : FileInfo) :
    (identify ctx info).weight ≤ 3 * maxFileBytes + 10 := by
  simp only [identify]
  split
  · simp [FilePhase.weight]
  · split <;> simp only [FilePhase.weight, List.length_nil] <;> omega

theorem weight_conclude (ctx : FileContext) (prepared : PreparedFile) (blob : BlobState) :
    (conclude ctx prepared blob).weight ≤ 1 := by
  simp only [conclude]
  split
  · simp [FilePhase.weight]
  · split <;> simp [FilePhase.weight]

theorem weight_scanned (ctx : FileContext) (info : FileInfo) :
    (scanned ctx info).weight ≤ 4 * maxFileBytes + 11 := by
  simp only [scanned]
  split
  · simp only [FilePhase.weight, List.length_nil]
    omega
  · exact (weight_identify ctx info).trans (by omega)

theorem weight_lt {phase : FilePhase} (lower : phase.weight < task.phase.weight) :
    ({ task with phase } : FileTask).weight < task.weight := Nat.add_lt_add_left lower _

/-- A retry costs an attempt, and that is worth a whole scan. -/
theorem weight_uploaded {prepared : PreparedFile} {call : UploadCall}
    (uploading : task.phase = .uploading prepared call) (result : Except Error UploadOutcome) :
    (task.uploaded ctx prepared result).weight < task.weight := by
  have before : task.phase.weight = call.weight + 2 := by rw [uploading]; rfl
  rcases result with error | ⟨bytes⟩ | _
  · simp only [FileTask.uploaded]
    split
    next retry =>
      obtain ⟨less, same⟩ := Nat.exists_eq_succ_of_ne_zero retry.2.ne'
      simp only [weight, same, Nat.succ_mul, Nat.succ_sub_one, FilePhase.weight]
      omega
    next => exact weight_lt (by rw [before]; exact Nat.succ_pos _)
  · exact weight_lt ((weight_conclude ctx prepared .uploaded).trans_lt (by omega))
  · exact weight_lt ((weight_conclude ctx prepared .existing).trans_lt (by omega))

theorem weight_step
    (stepped : task.step deployment ctx files store action = some (store', task')) :
    task'.weight < task.weight := by
  cases Step.of_step stepped with
  | scan scanning =>
      refine weight_lt ((weight_scanned ctx _).trans_lt ?_)
      rw [scanning]
      exact Nat.lt_succ_self _
  | scanHash hashing found positive more =>
      obtain ⟨bound, grows⟩ := offset_lt_of_chunk_ne_nil more
      refine weight_lt ?_
      simp only [hashing, FilePhase.weight, List.length_append]
      omega
  | scanHashed hashing =>
      refine weight_lt ((weight_identify ctx _).trans_lt ?_)
      simp only [hashing, FilePhase.weight]
      omega
  | scanHashFailed hashing =>
      refine weight_lt ((weight_identify ctx _).trans_lt ?_)
      simp only [hashing, FilePhase.weight]
      omega
  | hash hashing found positive more =>
      obtain ⟨bound, grows⟩ := offset_lt_of_chunk_ne_nil more
      refine weight_lt ?_
      simp only [hashing, FilePhase.weight, List.length_append]
      omega
  | hashed hashing =>
      refine weight_lt ?_
      simp only [hashing, FilePhase.weight]
      omega
  | failed error may =>
      refine weight_lt ?_
      simp only [MayFail] at may
      split at may
      next phase => simp [phase, FilePhase.weight]
      next phase => simp [phase, FilePhase.weight]
      next phase => simp [phase, FilePhase.weight]
      next phase => simp [phase, FilePhase.weight]
      next => exact may.elim
  | observe observing =>
      refine weight_lt ?_
      simp [observing, FilePhase.weight]
  | observeOffline observing =>
      refine weight_lt ?_
      simp [observing, FilePhase.weight]
  | found verifying =>
      refine weight_lt ((weight_conclude ctx _ _).trans_lt ?_)
      simp only [verifying, FilePhase.weight]
      omega
  | missing verifying =>
      refine weight_lt ?_
      simp only [verifying, FilePhase.weight, UploadCall.weight]
      omega
  | missingPreview verifying =>
      refine weight_lt ((weight_conclude ctx _ _).trans_lt ?_)
      simp only [verifying, FilePhase.weight]
      omega
  | upload uploading moved =>
      refine weight_lt ?_
      simpa only [uploading, FilePhase.weight, Nat.add_lt_add_iff_right]
        using uploadCall_weight_step moved
  | uploaded uploading => exact weight_uploaded uploading _
  | stamp stamping =>
      refine weight_lt ?_
      simp [stamping, FilePhase.weight]

end FileTask

/-! ## The last scan decides -/

/-- The record of a scan, with its place in the tree. -/
def placed (ctx : FileContext) (info : FileInfo) : FileInfo :=
  { info with parentDir := (parentDir? (info.sourcePath.stripPrefix ctx.root)).getD info.parentDir }

/-- The file was prepared from one stat and one hash. -/
def PreparedFrom (deployment : Deployment) (ctx : FileContext) (path : PathBuf) (sizeBytes : Nat)
    (details : ScanDetails) (hash : ContentHash) (prepared : PreparedFile) : Prop :=
  ∃ relativePath now, normalizeRelativePath (path.stripPrefix ctx.root) = .ok relativePath ∧
    prepared = .observe deployment ctx (placed ctx (FileInfo.scanned path sizeBytes details))
      relativePath hash now

/-- The last findings are those the prepared file consists of. -/
def Latest (deployment : Deployment) (ctx : FileContext) (path : PathBuf) (seen : List Finding)
    (prepared : PreparedFile) : Prop :=
  ∃ before sizeBytes details hash,
    seen = before ++ [.scanned sizeBytes details, .hashed hash, .prepared prepared] ∧
      PreparedFrom deployment ctx path sizeBytes details hash prepared

theorem PreparedFrom.columns {deployment : Deployment} {ctx : FileContext} {path : PathBuf}
    {sizeBytes : Nat} {details : ScanDetails} {hash : ContentHash} {prepared : PreparedFile}
    (fresh : PreparedFrom deployment ctx path sizeBytes details hash prepared) :
    prepared.contentHash = hash ∧ prepared.info.sizeBytes = sizeBytes ∧
      prepared.info.contentHash = some hash ∧
      prepared.info.objectUri = some (objectUri deployment.bucket hash) ∧
      prepared.info.relativePath = some prepared.relativePath ∧
      prepared.info.id = observationId deployment.crypto ctx.sourceId prepared.relativePath
        (some hash.text) .present ∧
      prepared.info.runId = some ctx.runId ∧ prepared.info.sourceId = some ctx.sourceId := by
  obtain ⟨relativePath, now, -, rfl⟩ := fresh
  exact ⟨rfl, rfl, rfl, rfl, rfl, rfl, rfl, rfl⟩

theorem Latest.stored {deployment : Deployment} {ctx : FileContext} {path : PathBuf}
    {seen : List Finding} {prepared : PreparedFile} {store : ObjectStore}
    (latest : Latest deployment ctx path seen prepared) (stored : Stored store prepared.info) :
    ∃ before sizeBytes details object,
      seen = before ++
        [.scanned sizeBytes details, .hashed prepared.contentHash, .prepared prepared] ∧
      PreparedFrom deployment ctx path sizeBytes details prepared.contentHash prepared ∧
      store prepared.contentHash.toObjectKey = some object ∧ object.bytes.length = sizeBytes := by
  obtain ⟨before, sizeBytes, details, hash, shown, fresh⟩ := latest
  obtain ⟨rfl, size, contentHash, -⟩ := fresh.columns
  obtain ⟨stored, object, named, held, length⟩ := stored
  rw [contentHash, Option.some.injEq] at named
  subst named
  exact ⟨before, sizeBytes, details, object, shown, fresh, held, length.trans size⟩

/-- What holds of a worker after these findings, while others have stored
these blobs. -/
def Coherent (deployment : Deployment) (ctx : FileContext) (seen : List Finding)
    (others : List Object) (run : FileRun) : Prop :=
  let task := run.task
  match task.phase with
  | .scanning | .returned (.error _) => True
  | .scanHashing info _ =>
      ∃ before sizeBytes details, seen = before ++ [.scanned sizeBytes details] ∧
      info = FileInfo.scanned task.path sizeBytes details
  | .hashing info relativePath _ => ∃ before sizeBytes details,
      seen = before ++ [.scanned sizeBytes details] ∧
      normalizeRelativePath (task.path.stripPrefix ctx.root) = .ok relativePath ∧
      info = placed ctx (FileInfo.scanned task.path sizeBytes details)
  | .observing info relativePath hash => ∃ before sizeBytes details,
      seen = before ++ [.scanned sizeBytes details, .hashed hash] ∧
      normalizeRelativePath (task.path.stripPrefix ctx.root) = .ok relativePath ∧
      ∃ inline, info =
        { placed ctx (FileInfo.scanned task.path sizeBytes details) with contentHash := inline }
  | .verifying prepared => Latest deployment ctx task.path seen prepared
  | .uploading prepared call => Latest deployment ctx task.path seen prepared ∧
      call.Valid deployment ∧ call.expected = prepared.contentHash ∧
      call.expectedLen = prepared.info.sizeBytes ∧
      (∀ result, call.phase ≠ .returned result) ∧
      ∀ object, run.store call.key = some object →
        object ∈ others ∧ deployment.crypto.hexDigest object.bytes = call.expected.text
  | .stamping info _ => ∃ prepared, Latest deployment ctx task.path seen prepared ∧
      Stored run.store prepared.info ∧
      decide ctx.state prepared.relativePath prepared.contentHash.text = .observe ∧
      info = prepared.info
  | .returned (.ok (.observed info _)) => ∃ prepared now,
      Latest deployment ctx task.path seen prepared ∧ Stored run.store prepared.info ∧
      decide ctx.state prepared.relativePath prepared.contentHash.text = .observe ∧
      info = { prepared.info with ingestedAt := some now }
  | .returned (.ok (.unchanged _)) => ∃ prepared,
      Latest deployment ctx task.path seen prepared ∧ Stored run.store prepared.info ∧
      decide ctx.state prepared.relativePath prepared.contentHash.text = .unchanged

section Coherent

variable {deployment : Deployment} {ctx : FileContext} {seen : List Finding}
  {others : List Object} {files : SourceFiles} {store : ObjectStore} {path : PathBuf}
  {left : Nat}

theorem coherent_hashing (before : List Finding) {sizeBytes : Nat} {details : ScanDetails}
    (shown : seen = before ++ [.scanned sizeBytes details]) :
    Coherent deployment ctx seen others
      ⟨files, store, path, left, identify ctx (FileInfo.scanned path sizeBytes details)⟩ := by
  simp only [identify, FileInfo.scanned]
  split
  next => trivial
  next relativePath normalized => exact ⟨before, sizeBytes, details, shown, normalized, rfl⟩

theorem coherent_observing (before : List Finding) {sizeBytes : Nat} {details : ScanDetails}
    {hash : ContentHash}
    (shown : seen = before ++ [.scanned sizeBytes details, .hashed hash]) :
    Coherent deployment ctx seen others
      ⟨files, store, path, left, identify ctx
        { FileInfo.scanned path sizeBytes details with contentHash := some hash }⟩ := by
  simp only [identify, FileInfo.scanned]
  split
  next => trivial
  next relativePath normalized =>
    exact ⟨before, sizeBytes, details, shown, normalized, some hash, rfl⟩

theorem coherent_conclude {prepared : PreparedFile} (blob : BlobState)
    (writes : ctx.mode.writes = true) (latest : Latest deployment ctx path seen prepared)
    (stored : Stored store prepared.info) :
    Coherent deployment ctx seen others ⟨files, store, path, left, conclude ctx prepared blob⟩ := by
  simp only [conclude, writes, if_true]
  split
  next decided => exact ⟨prepared, latest, stored, decided⟩
  next decided => exact ⟨prepared, latest, stored, decided, rfl⟩

/-- Another worker's blob may take the key of an upload; nothing else changes. -/
theorem Coherent.create {task : FileTask} {hash : ContentHash} {object : Object}
    (coherent : Coherent deployment ctx seen others ⟨files, store, task⟩)
    (addressed : deployment.crypto.hexDigest object.bytes = hash.text) :
    Coherent deployment ctx seen (others ++ [object])
      ⟨files, store.create hash.toObjectKey object, task⟩ := by
  have grows := WriteOnce.extends_create store hash.toObjectKey object
  obtain ⟨path, left, phase⟩ := task
  cases phase with
  | uploading prepared call =>
      obtain ⟨latest, valid, expected, expectedLen, waiting, present⟩ := coherent
      refine ⟨latest, valid, expected, expectedLen, waiting, ?_⟩
      intro other held
      rcases WriteOnce.create_eq_some held with old | ⟨-, key, rfl⟩
      · exact ⟨List.mem_append_left _ (present other old).1, (present other old).2⟩
      · rw [ContentHash.toObjectKey_injective key]
        exact ⟨by simp, addressed⟩
  | stamping info blob =>
      obtain ⟨prepared, latest, stored, decided, same⟩ := coherent
      exact ⟨prepared, latest, stored.mono grows, decided, same⟩
  | returned result =>
      rcases result with error | ⟨info, blob⟩ | blob
      · trivial
      · obtain ⟨prepared, now, latest, stored, decided, same⟩ := coherent
        exact ⟨prepared, now, latest, stored.mono grows, decided, same⟩
      · obtain ⟨prepared, latest, stored, decided⟩ := coherent
        exact ⟨prepared, latest, stored.mono grows, decided⟩
  | _ => exact coherent

theorem Coherent.work {run : FileRun} {action : FileAction} {store' : ObjectStore}
    {task' : FileTask} (writes : ctx.mode.writes = true) (operator : ctx.operator = true)
    (coherent : Coherent deployment ctx seen others run)
    (collisionFree : ∀ object ∈ others, ∀ bytes, run.task.closingStream? action = some bytes →
      deployment.crypto.sha256 object.bytes = deployment.crypto.sha256 bytes →
      object.bytes = bytes)
    (stepped : run.task.step deployment ctx run.files run.store action = some (store', task')) :
    Coherent deployment ctx (seen ++ run.findings deployment ctx (.work action)) others
      { run with store := store', task := task' } := by
  unfold Coherent at coherent
  cases FileTask.Step.of_step stepped with
  | @scan details contents scanning found =>
      have shown : seen ++ run.findings deployment ctx (.work (.scan details)) =
          seen ++ [.scanned contents.bytes.length details] := by
        simp [FileRun.findings, scanning, found]
      rw [shown]
      simp only [scanned]
      split
      · exact ⟨seen, _, details, rfl, rfl⟩
      · exact coherent_hashing seen rfl
  | scanHash hashing found positive more =>
      simp only [hashing] at coherent
      simpa [Coherent, FileRun.findings, hashing, found, more] using coherent
  | @scanHashed info read contents n hashing found positive ended =>
      simp only [hashing] at coherent
      obtain ⟨before, sizeBytes, details, rfl, rfl⟩ := coherent
      apply coherent_observing before
      simp [FileRun.findings, hashing, found, ended]
  | scanHashFailed hashing =>
      simp only [hashing] at coherent
      obtain ⟨before, sizeBytes, details, rfl, rfl⟩ := coherent
      apply coherent_hashing before
      simp [FileRun.findings]
  | hash hashing found positive more =>
      simp only [hashing] at coherent
      simpa [Coherent, FileRun.findings, hashing, found, more] using coherent
  | hashed hashing found positive ended =>
      simp only [hashing] at coherent
      obtain ⟨before, sizeBytes, details, rfl, normalized, rfl⟩ := coherent
      refine ⟨before, sizeBytes, details, ?_, normalized, none, rfl⟩
      simp [FileRun.findings, hashing, found, ended]
  | failed => trivial
  | @observe info relativePath hash now observing =>
      simp only [observing] at coherent
      obtain ⟨before, sizeBytes, details, rfl, normalized, inline, rfl⟩ := coherent
      refine ⟨before, sizeBytes, details, hash, ?_, relativePath, now, normalized, rfl⟩
      simp [FileRun.findings, observing]
  | observeOffline observing offline => simp [operator] at offline
  | @found prepared verdict verifying verdictCase present =>
      simp only [verifying] at coherent
      obtain ⟨object, held, size⟩ := verifyExisting_found verdictCase present
      simp only [FileRun.findings, List.append_nil]
      exact coherent_conclude .existing writes coherent
        ⟨_, object, prepared.contentHash_eq, held, size⟩
  | @missing prepared verifying verdictCase =>
      simp only [verifying] at coherent
      simp only [FileRun.findings, List.append_nil]
      refine ⟨coherent, rfl, rfl, rfl, by simp, ?_⟩
      intro object held
      have free : run.store prepared.contentHash.toObjectKey = none :=
        verifyExisting_missing verdictCase
      simp [UploadCall.key, free] at held
  | missingPreview verifying verdictCase preview => simp [writes] at preview
  | @upload prepared call uploadAction store' call' uploading moved waiting =>
      simp only [uploading] at coherent
      obtain ⟨latest, valid, expected, expectedLen, -, present⟩ := coherent
      obtain ⟨-, sameExpected, sameLen⟩ := UploadCall.step_arguments moved
      obtain rfl := UploadCall.store_of_waiting moved waiting
      have sameKey : call'.key = call.key := by simp [UploadCall.key, sameExpected]
      simp only [FileRun.findings, List.append_nil]
      refine ⟨latest, valid.step moved, sameExpected.trans expected, sameLen.trans expectedLen,
        waiting, ?_⟩
      rw [sameKey, sameExpected]
      exact present
  | @uploaded prepared call uploadAction store' call' result uploading moved ended =>
      simp only [uploading] at coherent
      obtain ⟨latest, valid, expected, expectedLen, -, present⟩ := coherent
      simp only [FileRun.findings, List.append_nil]
      rcases result with error | outcome
      · simp only [FileTask.uploaded]
        split <;> trivial
      · have stored : Stored store' prepared.info := by
          refine FileTask.stored_of_uploaded (fun object held => (present object held).2) valid
            expected expectedLen ?_ moved ended
          have closing := UploadCall.action_of_stored moved ended
          intro object held
          exact collisionFree object (present object held).1 _
            (by simp [FileTask.closingStream?, closing, uploading])
        rcases outcome with ⟨bytes⟩ | _
        · exact coherent_conclude .uploaded writes latest stored
        · exact coherent_conclude .existing writes latest stored
  | @stamp info blob now stamping =>
      simp only [stamping] at coherent
      obtain ⟨prepared, latest, stored, decided, rfl⟩ := coherent
      simp only [FileRun.findings, List.append_nil]
      exact ⟨prepared, now, latest, stored, decided, rfl⟩

end Coherent

/-! ## Two attempts, one result -/

/-- Attempts made and attempts left, by phase. -/
def Budgeted (attempted : Nat) (task : FileTask) : Prop :=
  match task.phase with
  | .uploading _ _ | .stamping _ _ | .returned _ => attempted + task.attemptsLeft ≤ 2
  | _ => attempted + task.attemptsLeft ≤ 1

namespace FileTask

variable {deployment : Deployment} {ctx : FileContext} {files : SourceFiles}
  {store store' : ObjectStore} {task task' : FileTask} {action : FileAction} {attempted : Nat}

theorem budgeted_identify {path : PathBuf} {left : Nat} (info : FileInfo)
    (bound : attempted + left ≤ 1) : Budgeted attempted ⟨path, left, identify ctx info⟩ := by
  simp only [identify]
  split
  · exact bound.trans (by omega)
  · split <;> exact bound

theorem budgeted_conclude {path : PathBuf} {left : Nat} (prepared : PreparedFile)
    (blob : BlobState) (bound : attempted + left ≤ 2) :
    Budgeted attempted ⟨path, left, conclude ctx prepared blob⟩ := by
  simp only [conclude]
  split
  · exact bound
  · split <;> exact bound

theorem conclude_ne_uploading (prepared other : PreparedFile) (blob : BlobState)
    (call : UploadCall) : conclude ctx prepared blob ≠ .uploading other call := by
  simp only [conclude]
  split
  · simp
  · split <;> simp

theorem exists_step (store : ObjectStore) (files : SourceFiles) (running : task.result? = none)
    (waiting : ∀ prepared call, task.phase = .uploading prepared call →
      ∀ result, call.phase ≠ .returned result) :
    ∃ action store' task', task.step deployment ctx files store action = some (store', task') := by
  have upload : ∀ prepared (call call' : UploadCall) uploadAction store',
      task.phase = .uploading prepared call →
      call.step deployment files store uploadAction = some (store', call') →
      ∃ action store' task',
        task.step deployment ctx files store action = some (store', task') := by
    intro prepared call call' uploadAction store' uploading moved
    refine ⟨.upload uploadAction, ?_⟩
    simp only [FileTask.step, uploading, moved, Option.map_some]
    split <;> exact ⟨_, _, rfl⟩
  cases phase : task.phase with
  | scanning => exact ⟨.scanFailed "", store, _, by simp [FileTask.step, phase]; rfl⟩
  | scanHashing info read => exact ⟨.readFailed "", store, _, by simp [FileTask.step, phase]; rfl⟩
  | hashing info relativePath read =>
      exact ⟨.readFailed "", store, _, by simp [FileTask.step, phase]; rfl⟩
  | observing info relativePath hash =>
      exact ⟨.observe 0, store, _, by simp [FileTask.step, phase]; rfl⟩
  | verifying prepared => exact ⟨.verifyFailed "", store, _, by simp [FileTask.step, phase]; rfl⟩
  | stamping info blob => exact ⟨.stamp 0, store, _, by simp [FileTask.step, phase]; rfl⟩
  | returned result => simp [result?, phase] at running
  | uploading prepared call =>
      cases stage : call.phase with
      | stating =>
          exact upload _ _ _ (.statFailed "") store phase (by simp [UploadCall.step, stage]; rfl)
      | opening =>
          exact upload _ _ _ (.openFailed "") store phase (by simp [UploadCall.step, stage]; rfl)
      | openingWriter =>
          exact upload _ _ _ .openWriter store phase (by simp [UploadCall.step, stage]; rfl)
      | reading =>
          exact upload _ _ _ (.readFailed "") store phase (by simp [UploadCall.step, stage]; rfl)
      | writing chunk =>
          exact upload _ _ _ .write store phase (by simp [UploadCall.step, stage]; rfl)
      | closing =>
          exact upload _ _ _ (.closeFailed false "") store phase
            (by simp [UploadCall.step, stage]; rfl)
      | aborting error =>
          exact upload _ _ _ .abort store phase (by simp [UploadCall.step, stage]; rfl)
      | returned result => exact (waiting prepared call phase result stage).elim

end FileTask

namespace FileRun

variable {deployment : Deployment} {ctx : FileContext} {run next : FileRun}
  {action : FileRunAction}

inductive Step (deployment : Deployment) (ctx : FileContext) (run : FileRun) :
    FileRunAction → FileRun → Prop where
  | work {action store task} :
      run.task.step deployment ctx run.files run.store action = some (store, task) →
      Step deployment ctx run (.work action) { run with store, task }
  | edit {path contents} :
      Step deployment ctx run (.edit path contents)
        { run with files := Function.update run.files path contents }
  | create {hash object} :
      deployment.crypto.hexDigest object.bytes = hash.text →
      Step deployment ctx run (.create hash object)
        { run with store := run.store.create hash.toObjectKey object }

theorem Step.of_step (stepped : run.step deployment ctx action = some next) :
    Step deployment ctx run action next := by
  cases action with
  | work action =>
      obtain ⟨⟨store, task⟩, taken, rfl⟩ := Option.map_eq_some_iff.mp stepped
      exact .work taken
  | edit path contents => cases stepped; exact .edit
  | create hash object =>
      simp only [step] at stepped
      split at stepped
      next addressed => cases stepped; exact .create addressed
      next => cases stepped

theorem attempts_eq_nil (stepped : run.step deployment ctx action = some next)
    (other : ∀ prepared call, action = .work .verify →
      next.task.phase ≠ .uploading prepared call) : run.attempts deployment ctx action = [] := by
  simp only [attempts, stepped, Option.map_some]
  split
  next prepared call phase =>
    exact (other prepared call rfl (Option.some.inj phase)).elim
  next => rfl

theorem Budgeted.step {attempted : Nat} (budgeted : Budgeted attempted run.task)
    (stepped : run.step deployment ctx action = some next) :
    Budgeted (attempted + (run.attempts deployment ctx action).length) next.task := by
  have idle : (∀ prepared call, action = .work .verify →
      next.task.phase ≠ .uploading prepared call) → Budgeted attempted next.task →
      Budgeted (attempted + (run.attempts deployment ctx action).length) next.task := by
    intro other same
    rw [attempts_eq_nil stepped other]
    exact same
  unfold Budgeted at budgeted
  cases Step.of_step stepped with
  | edit => exact idle (by simp) budgeted
  | create => exact idle (by simp) budgeted
  | work moved =>
      cases FileTask.Step.of_step moved with
      | scan scanning =>
          simp only [scanning] at budgeted
          apply idle (by simp)
          simp only [scanned]
          split
          · exact budgeted
          · exact FileTask.budgeted_identify _ budgeted
      | scanHash hashing =>
          simp only [hashing] at budgeted
          exact idle (by simp) budgeted
      | scanHashed hashing =>
          simp only [hashing] at budgeted
          exact idle (by simp) (FileTask.budgeted_identify _ budgeted)
      | scanHashFailed hashing =>
          simp only [hashing] at budgeted
          exact idle (by simp) (FileTask.budgeted_identify _ budgeted)
      | hash hashing =>
          simp only [hashing] at budgeted
          exact idle (by simp) budgeted
      | hashed hashing =>
          simp only [hashing] at budgeted
          exact idle (by simp) budgeted
      | failed error may =>
          refine idle (by simp) ?_
          change attempted + run.task.attemptsLeft ≤ 2
          simp only [FileTask.MayFail] at may
          split at may
          next phase => simp only [phase] at budgeted; omega
          next phase => simp only [phase] at budgeted; omega
          next phase => simp only [phase] at budgeted; omega
          next phase => simp only [phase] at budgeted; omega
          next => exact may.elim
      | observe observing =>
          simp only [observing] at budgeted
          exact idle (by simp) budgeted
      | observeOffline observing =>
          simp only [observing] at budgeted
          exact idle (by simp) (Nat.le_succ_of_le budgeted)
      | found verifying =>
          simp only [verifying] at budgeted
          exact idle (fun _ call _ => FileTask.conclude_ne_uploading _ _ _ call)
            (FileTask.budgeted_conclude _ _ (Nat.le_succ_of_le budgeted))
      | missing verifying =>
          simp only [verifying] at budgeted
          simp only [attempts, stepped, Option.map_some, List.length_singleton]
          change attempted + 1 + run.task.attemptsLeft ≤ 2
          omega
      | missingPreview verifying =>
          simp only [verifying] at budgeted
          exact idle (fun _ call _ => FileTask.conclude_ne_uploading _ _ _ call)
            (FileTask.budgeted_conclude _ _ (Nat.le_succ_of_le budgeted))
      | upload uploading =>
          simp only [uploading] at budgeted
          exact idle (by simp) budgeted
      | @uploaded prepared call uploadAction store' call' result uploading =>
          simp only [uploading] at budgeted
          apply idle (by simp)
          rcases result with error | ⟨bytes⟩ | _
          · simp only [FileTask.uploaded]
            split
            next retry =>
              change attempted + (run.task.attemptsLeft - 1) ≤ 1
              omega
            next => exact budgeted
          · exact FileTask.budgeted_conclude _ _ budgeted
          · exact FileTask.budgeted_conclude _ _ budgeted
      | stamp stamping =>
          simp only [stamping] at budgeted
          exact idle (by simp) budgeted

theorem results_step {returned : List (Except Error IngestOutcome)}
    (same : returned = run.task.result?.toList)
    (stepped : run.step deployment ctx action = some next) :
    returned ++ run.results deployment ctx action = next.task.result?.toList := by
  cases action with
  | work action =>
      simp only [results, stepped]
      cases Step.of_step stepped with
      | work moved => simp [same, FileTask.result?_of_step moved]
  | edit path contents => cases stepped; simpa [results] using same
  | create hash object =>
      cases Step.of_step stepped
      simpa [results] using same

theorem step_extends (stepped : run.step deployment ctx action = some next) :
    WriteOnce.Extends run.store next.store := by
  cases Step.of_step stepped with
  | work moved => exact FileTask.step_extends moved
  | edit => exact WriteOnce.Extends.refl _
  | create => exact WriteOnce.extends_create _ _ _

theorem weight_step (stepped : run.step deployment ctx action = some next) :
    next.task.weight + (if action.isWork then 1 else 0) ≤ run.task.weight := by
  cases Step.of_step stepped with
  | work moved => exact FileTask.weight_step moved
  | edit => simp [FileRunAction.isWork]
  | create => simp [FileRunAction.isWork]

theorem coherent_step {seen : List Finding} {others : List Object}
    (writes : ctx.mode.writes = true) (operator : ctx.operator = true)
    (coherent : Coherent deployment ctx seen others run)
    (collisionFree : ∀ object ∈ others, ∀ bytes ∈ run.closingStreams action,
      deployment.crypto.sha256 object.bytes = deployment.crypto.sha256 bytes →
      object.bytes = bytes)
    (stepped : run.step deployment ctx action = some next) :
    Coherent deployment ctx (seen ++ run.findings deployment ctx action)
      (others ++ run.created action) next := by
  cases Step.of_step stepped with
  | work moved =>
      simp only [created, List.append_nil]
      refine coherent.work writes operator ?_ moved
      intro object member bytes closing
      exact collisionFree object member bytes (by simp [closingStreams, closing])
  | edit =>
      simp only [findings, created, List.append_nil]
      exact coherent
  | create addressed =>
      simp only [findings, created, List.append_nil]
      exact coherent.create addressed

section Runs

variable {files : SourceFiles} {store : ObjectStore} {path : PathBuf}
  {actions : List FileRunAction} {final : FileRun}

theorem budgeted_of_exec
    (exec : (machine deployment ctx).exec (start files store path) actions = some final) :
    Budgeted ((machine deployment ctx).observe (attempts deployment ctx)
      (start files store path) actions).length final.task := by
  refine (machine deployment ctx).exec_induction (motive := fun actions (run : FileRun) =>
    Budgeted ((machine deployment ctx).observe (attempts deployment ctx)
      (start files store path) actions).length run.task) ?_ ?_ exec
  · exact le_refl 1
  · intro actions middle action next before budgeted stepped
    rw [(machine deployment ctx).observe_snoc _ before stepped, List.length_append]
    exact Budgeted.step budgeted stepped

theorem path_of_exec
    (exec : (machine deployment ctx).exec (start files store path) actions = some final) :
    final.task.path = path := by
  refine (machine deployment ctx).exec_invariant (fun run => run.task.path = path) rfl ?_ exec
  intro run action next same stepped
  cases Step.of_step stepped with
  | work moved => exact (FileTask.step_path moved).trans same
  | edit => exact same
  | create => exact same

theorem results_of_exec
    (exec : (machine deployment ctx).exec (start files store path) actions = some final) :
    (machine deployment ctx).observe (results deployment ctx) (start files store path) actions =
      final.task.result?.toList := by
  refine (machine deployment ctx).exec_induction (motive := fun actions (run : FileRun) =>
    (machine deployment ctx).observe (results deployment ctx) (start files store path) actions =
      run.task.result?.toList) rfl ?_ exec
  intro actions middle action next before same stepped
  rw [(machine deployment ctx).observe_snoc _ before stepped]
  exact results_step same stepped

theorem coherent_of_exec (writes : ctx.mode.writes = true) (operator : ctx.operator = true)
    (exec : (machine deployment ctx).exec (start files store path) actions = some final)
    (collisionFree :
      ∀ object ∈ (machine deployment ctx).observe created (start files store path) actions,
      ∀ bytes ∈ (machine deployment ctx).observe closingStreams (start files store path) actions,
        deployment.crypto.sha256 object.bytes = deployment.crypto.sha256 bytes →
        object.bytes = bytes) :
    Coherent deployment ctx
      ((machine deployment ctx).observe (findings deployment ctx) (start files store path) actions)
      ((machine deployment ctx).observe created (start files store path) actions) final := by
  have tracked := (machine deployment ctx).exec_induction
    (motive := fun actions (run : FileRun) =>
      (∀ object ∈ (machine deployment ctx).observe created (start files store path) actions,
        ∀ bytes ∈ (machine deployment ctx).observe closingStreams (start files store path) actions,
          deployment.crypto.sha256 object.bytes = deployment.crypto.sha256 bytes →
          object.bytes = bytes) →
      Coherent deployment ctx
        ((machine deployment ctx).observe (findings deployment ctx) (start files store path)
          actions)
        ((machine deployment ctx).observe created (start files store path) actions) run) ?_ ?_ exec
  · exact tracked collisionFree
  · intro
    trivial
  · intro actions middle action next before coherent stepped free
    simp only [(machine deployment ctx).observe_snoc _ before stepped] at free ⊢
    refine coherent_step writes operator (coherent ?_) ?_ stepped
    · intro object made bytes closed
      exact free object (List.mem_append_left _ made) bytes (List.mem_append_left _ closed)
    · intro object made bytes closed
      exact free object (List.mem_append_left _ made) bytes (List.mem_append_right _ closed)

end Runs

end FileRun

open FileRun in
/-- Whatever happens to its file, an ingesting worker attempts at most two
uploads, ends, returns once, and overwrites nothing; what it returns is about
its last scan alone, whose blob the store then holds. -/
theorem process_file_is_coherent
    {deployment : Deployment} {ctx : FileContext} {files : SourceFiles} {store : ObjectStore}
    {path : PathBuf} {actions : List FileRunAction} {final : FileRun}
    (ingesting : ctx.mode = .ingest) (operator : ctx.operator = true)
    (exec : (machine deployment ctx).exec (start files store path) actions = some final)
    (collisionFree :
      ∀ object ∈ (machine deployment ctx).observe created (start files store path) actions,
      ∀ bytes ∈ (machine deployment ctx).observe closingStreams (start files store path) actions,
        deployment.crypto.sha256 object.bytes = deployment.crypto.sha256 bytes →
        object.bytes = bytes) :
    let attempted := (machine deployment ctx).observe (attempts deployment ctx)
      (start files store path) actions
    let returned := (machine deployment ctx).observe (results deployment ctx)
      (start files store path) actions
    let seen := (machine deployment ctx).observe (findings deployment ctx)
      (start files store path) actions
    attempted.length ≤ 2 ∧
    actions.countP FileRunAction.isWork ≤ 8 * 2 ^ 63 + 25 ∧
    (final.task.result? = none → ∃ action next,
      (machine deployment ctx).step final (.work action) = some next) ∧
    returned = final.task.result?.toList ∧
    WriteOnce.Extends store final.store ∧
    ∀ outcome, final.task.result? = some (.ok outcome) →
      ∃ before sizeBytes details hash prepared object,
        seen = before ++ [.scanned sizeBytes details, .hashed hash, .prepared prepared] ∧
        PreparedFrom deployment ctx path sizeBytes details hash prepared ∧
        final.store hash.toObjectKey = some object ∧ object.bytes.length = sizeBytes ∧
        (Pipeline.outcomeRow? outcome = none ↔
          decide ctx.state prepared.relativePath hash.text = .unchanged) ∧
        ∀ info, Pipeline.outcomeRow? outcome = some info →
          (∃ now, info = { prepared.info with ingestedAt := some now }) ∧
          info.contentHash = some hash ∧
          info.objectUri = some (objectUri deployment.bucket hash) ∧
          info.relativePath = some prepared.relativePath ∧
          info.id = observationId deployment.crypto ctx.sourceId prepared.relativePath
            (some hash.text) .present ∧
          info.sizeBytes = object.bytes.length ∧
          info.runId = some ctx.runId ∧ info.sourceId = some ctx.sourceId := by
  have writes : ctx.mode.writes = true := by rw [ingesting]; rfl
  have coherent := coherent_of_exec writes operator exec collisionFree
  refine ⟨?_, ?_, ?_, results_of_exec exec, ?_, ?_⟩
  · have budgeted := budgeted_of_exec exec
    unfold Budgeted at budgeted
    split at budgeted <;> omega
  · have bound := (machine deployment ctx).exec_countP_le (fun run => run.task.weight)
      FileRunAction.isWork (fun _ _ _ stepped => weight_step stepped) exec
    have initial : (start files store path).task.weight = 8 * maxFileBytes + 25 := by
      simp only [start, FileTask.weight, sourceChangedRetries, FilePhase.weight]
      omega
    simp only [initial] at bound
    exact (Nat.le_add_right _ _).trans bound
  · intro running
    obtain ⟨action, store', task', moved⟩ :=
      FileTask.exists_step final.store final.files running (by
        intro prepared call uploading
        simp only [Coherent, uploading] at coherent
        exact coherent.2.2.2.2.1)
    exact ⟨action, { final with store := store', task := task' },
      Option.map_eq_some_iff.mpr ⟨_, moved, rfl⟩⟩
  · exact (machine deployment ctx).exec_relation
      (fun first second => WriteOnce.Extends first.store second.store)
      (fun _ => WriteOnce.Extends.refl _) (fun _ _ _ => WriteOnce.Extends.trans)
      (fun _ _ _ stepped => step_extends stepped) exec
  · intro outcome returned
    have phase := FileTask.result?_eq_some_iff.mp returned
    have same := path_of_exec exec
    cases outcome with
    | observed info blob =>
        simp only [Coherent, phase, same] at coherent
        obtain ⟨prepared, now, latest, stored, decided, rfl⟩ := coherent
        obtain ⟨before, sizeBytes, details, object, shown, fresh, held, length⟩ :=
          latest.stored stored
        obtain ⟨-, size, contentHash, uri, relativePath, id, owner⟩ := fresh.columns
        refine ⟨before, sizeBytes, details, _, prepared, object, shown, fresh, held, length,
          by simp [Pipeline.outcomeRow?, decided], ?_⟩
        rintro _ ⟨⟩
        exact ⟨⟨now, rfl⟩, contentHash, uri, relativePath, id, size.trans length.symm, owner⟩
    | unchanged blob =>
        simp only [Coherent, phase, same] at coherent
        obtain ⟨prepared, latest, stored, decided⟩ := coherent
        obtain ⟨before, sizeBytes, details, object, shown, fresh, held, length⟩ :=
          latest.stored stored
        refine ⟨before, sizeBytes, details, _, prepared, object, shown, fresh, held, length,
          by simp [Pipeline.outcomeRow?, decided], ?_⟩
        rintro _ ⟨⟩

def freshContext : FileContext :=
  ⟨⟨[utf8Bytes "data"]⟩, true, .ingest, 1, "/data", some fun _ => none⟩

def greeting : Contents := ⟨utf8Bytes "hello world", helloWorld_length_lt⟩

def otherGreeting : Contents := ⟨utf8Bytes "hello there", helloThere_length_lt⟩

/-- One attempt: the file is hashed, found missing, and about to be opened. -/
def attemptSchedule (now : DateTime) : List FileRunAction :=
  [.scan ⟨0, "", "(none)", none, .other, none, none, none, now, none, none⟩, .read hashBufferBytes,
    .read 1, .observe now, .verify, .upload .stat].map .work

/-- The file is rewritten, at the same length, before the first upload opens it;
the second upload stores what the second scan hashed. -/
def retrySchedule : List FileRunAction :=
  attemptSchedule 1 ++ [.edit ⟨[utf8Bytes "data", utf8Bytes "a"]⟩ (some otherGreeting)] ++
    ([.open, .openWriter, .read readBufferBytes, .write, .read 1, .abort].map
      fun action => .work (.upload action)) ++
    attemptSchedule 2 ++
    ([.open, .openWriter, .read readBufferBytes, .write, .read 1, .close].map
      fun action => .work (.upload action)) ++ [.work (.stamp 3)]

/-- What an upload that stored its object was to store. -/
def uploadedHash? : Option (Except Error IngestOutcome) → Option ContentHash
  | some (.ok (.observed info .uploaded)) => info.contentHash
  | _ => none

theorem process_file_is_coherent_retry :
    ∃ final info object,
      (FileRun.machine ⟨sampleCrypto, "lake", true⟩ freshContext).exec
        (FileRun.start (fun _ => some greeting) (fun _ => none)
          ⟨[utf8Bytes "data", utf8Bytes "a"]⟩) retrySchedule = some final ∧
      final.task.result? = some (.ok (.observed info .uploaded)) ∧
      info.contentHash = some ⟨sampleCrypto.hexDigest otherGreeting.bytes⟩ ∧
      final.store (ContentHash.toObjectKey ⟨sampleCrypto.hexDigest otherGreeting.bytes⟩) =
        some object ∧
      info.sizeBytes = object.bytes.length := by
  obtain ⟨final, run, shown⟩ := Option.map_eq_some_iff.mp (show
    ((FileRun.machine ⟨sampleCrypto, "lake", true⟩ freshContext).exec
      (FileRun.start (fun _ => some greeting) (fun _ => none)
        ⟨[utf8Bytes "data", utf8Bytes "a"]⟩) retrySchedule).map (fun final =>
          uploadedHash? final.task.result?) =
      some (some ⟨sampleCrypto.hexDigest otherGreeting.bytes⟩) by decide +kernel)
  unfold uploadedHash? at shown
  split at shown
  next info returned =>
    obtain ⟨-, -, -, -, -, last⟩ := process_file_is_coherent rfl rfl run (by
      intro object made
      have alone : (FileRun.machine ⟨sampleCrypto, "lake", true⟩ freshContext).observe
          FileRun.created (FileRun.start (fun _ => some greeting) (fun _ => none)
            ⟨[utf8Bytes "data", utf8Bytes "a"]⟩) retrySchedule = [] := by decide +kernel
      rw [alone] at made
      cases made)
    obtain ⟨before, sizeBytes, details, hash, prepared, object, -, -, held, -, -, row⟩ :=
      last _ returned
    obtain ⟨-, contentHash, -, -, -, size, -⟩ := row info rfl
    rw [contentHash] at shown
    obtain rfl := Option.some.inj shown
    exact ⟨final, info, object, run, returned, contentHash, held, size⟩
  next => cases shown

end AntiEntropator.Ingest

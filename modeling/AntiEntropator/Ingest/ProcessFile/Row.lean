import AntiEntropator.Ingest.Pipeline.Step
import AntiEntropator.Ingest.ProcessFile.Step

/-!
# The row of an observed path

What a worker's row says about its file, whatever happens to the file and the
store in the meantime: the identity columns, that the content differs from the
last known one, and that the blob it refers to is stored with the same size.
-/

namespace AntiEntropator.Ingest

/-- The record of an observed path, taken at one of the given times. -/
structure Observes (deployment : Deployment) (ctx : FileContext) (times : List DateTime)
    (path : PathBuf) (hash : ContentHash) (relativePath : String) (info : FileInfo) : Prop where
  sourcePath : info.sourcePath = path
  normalized : normalizeRelativePath (path.stripPrefix ctx.root) = .ok relativePath
  size : info.sizeBytes < 2 ^ 63
  contentHash : info.contentHash = some hash
  objectUri : info.objectUri = some (Ingest.objectUri deployment.bucket hash)
  id : info.id =
    observationId deployment.crypto ctx.sourceId relativePath (some hash.text) .present
  sourceId : info.sourceId = some ctx.sourceId
  relativePath : info.relativePath = some relativePath
  runId : info.runId = some ctx.runId
  status : info.observationStatus = some .present
  observedAt : ∃ time ∈ times, info.observedAt = some time

/-- A row to commit: an observed path whose content is news. -/
def NewRow (deployment : Deployment) (ctx : FileContext) (times : List DateTime) (path : PathBuf)
    (info : FileInfo) : Prop :=
  ∃ hash relativePath, Observes deployment ctx times path hash relativePath info ∧
    (ctx.operator = true → decide ctx.state relativePath hash.text = .observe)

/-- The blob the row refers to is stored, with the row's size. -/
def Stored (store : ObjectStore) (info : FileInfo) : Prop :=
  ∃ hash object, info.contentHash = some hash ∧ store hash.toObjectKey = some object ∧
    object.bytes.length = info.sizeBytes

theorem Observes.mono {deployment : Deployment} {ctx : FileContext} {times later : List DateTime}
    {path : PathBuf} {hash : ContentHash} {relativePath : String} {info : FileInfo}
    (observes : Observes deployment ctx times path hash relativePath info)
    (more : times ⊆ later) : Observes deployment ctx later path hash relativePath info :=
  { observes with
    observedAt := by
      obtain ⟨time, member, read⟩ := observes.observedAt
      exact ⟨time, more member, read⟩ }

theorem NewRow.mono {deployment : Deployment} {ctx : FileContext} {times later : List DateTime}
    {path : PathBuf} {info : FileInfo} (row : NewRow deployment ctx times path info)
    (more : times ⊆ later) : NewRow deployment ctx later path info := by
  obtain ⟨hash, relativePath, observes, news⟩ := row
  exact ⟨hash, relativePath, observes.mono more, news⟩

theorem Stored.mono {store later : ObjectStore} {info : FileInfo} (stored : Stored store info)
    (grows : WriteOnce.Extends store later) : Stored later info := by
  obtain ⟨hash, object, named, held, size⟩ := stored
  exact ⟨hash, object, named, grows _ _ held, size⟩

def ContentAddressed (deployment : Deployment) (store : ObjectStore) : Prop :=
  ∀ (hash : ContentHash) (object : Object), store hash.toObjectKey = some object →
    deployment.crypto.hexDigest object.bytes = hash.text

namespace FileTask

theorem result?_eq_some_iff {task : FileTask} {result : Except Error IngestOutcome} :
    task.result? = some result ↔ task.phase = .returned result := by
  unfold result?
  split
  next other phase => simp [phase]
  next waiting => simpa using waiting result

/-- The record of a scan, before it has an identity. -/
def Scanned (path : PathBuf) (info : FileInfo) : Prop :=
  info.sourcePath = path ∧ info.sizeBytes < 2 ^ 63

def Identified (ctx : FileContext) (path : PathBuf) (relativePath : String)
    (info : FileInfo) : Prop :=
  Scanned path info ∧ normalizeRelativePath (path.stripPrefix ctx.root) = .ok relativePath

/-- What holds of a worker at each of its awaits. -/
def Valid (deployment : Deployment) (ctx : FileContext) (times : List DateTime)
    (task : FileTask) : Prop :=
  match task.phase with
  | .scanning => True
  | .scanHashing info _ => Scanned task.path info
  | .hashing info relativePath _ => Identified ctx task.path relativePath info
  | .observing info relativePath _ => Identified ctx task.path relativePath info
  | .verifying prepared =>
      Observes deployment ctx times task.path prepared.contentHash prepared.relativePath
        prepared.info
  | .uploading prepared call =>
      Observes deployment ctx times task.path prepared.contentHash prepared.relativePath
          prepared.info ∧
        call.Valid deployment ∧ call.path = task.path ∧ call.expected = prepared.contentHash ∧
        call.expectedLen = prepared.info.sizeBytes
  | .stamping info _ => NewRow deployment ctx times task.path info
  | .returned (.ok (.observed info _)) => NewRow deployment ctx times task.path info
  | .returned _ => True

def Linked (store : ObjectStore) (task : FileTask) : Prop :=
  match task.phase with
  | .stamping info _ => Stored store info
  | .returned (.ok (.observed info _)) => Stored store info
  | _ => True

theorem Linked.mono {store later : ObjectStore} {task : FileTask} (linked : task.Linked store)
    (grows : WriteOnce.Extends store later) : task.Linked later := by
  unfold Linked at linked ⊢
  split
  next info blob phase =>
    simp only [phase] at linked
    exact linked.mono grows
  next info blob phase =>
    simp only [phase] at linked
    exact linked.mono grows
  next => trivial

theorem Valid.mono {deployment : Deployment} {ctx : FileContext} {times later : List DateTime}
    {task : FileTask} (valid : task.Valid deployment ctx times) (more : times ⊆ later) :
    task.Valid deployment ctx later := by
  unfold Valid at valid ⊢
  split
  next => trivial
  next phase => simpa [phase] using valid
  next phase => simpa [phase] using valid
  next phase => simpa [phase] using valid
  next phase =>
    simp only [phase] at valid
    exact valid.mono more
  next phase =>
    simp only [phase] at valid
    exact ⟨valid.1.mono more, valid.2⟩
  next phase =>
    simp only [phase] at valid
    exact valid.mono more
  next phase =>
    simp only [phase] at valid
    exact valid.mono more
  next => trivial

section Phases

variable {deployment : Deployment} {ctx : FileContext} {times : List DateTime} {path : PathBuf}
  {attempts : Nat}

theorem valid_identify {info : FileInfo} (scanned : Scanned path info) :
    Valid deployment ctx times ⟨path, attempts, identify ctx info⟩ := by
  simp only [identify, scanned.1]
  split
  next => trivial
  next relativePath normalized => split <;> exact ⟨⟨rfl, scanned.2⟩, normalized⟩

theorem valid_observe {info : FileInfo} {relativePath : String} (hash : ContentHash)
    {now : DateTime} (identified : Identified ctx path relativePath info) (taken : now ∈ times) :
    Observes deployment ctx times path hash relativePath
      (PreparedFile.observe deployment ctx info relativePath hash now).info where
  sourcePath := identified.1.1
  normalized := identified.2
  size := identified.1.2
  contentHash := rfl
  objectUri := rfl
  id := rfl
  sourceId := rfl
  relativePath := rfl
  runId := rfl
  status := rfl
  observedAt := ⟨now, taken, rfl⟩

theorem valid_conclude {prepared : PreparedFile} (blob : BlobState)
    (observes : Observes deployment ctx times path prepared.contentHash prepared.relativePath
      prepared.info) :
    Valid deployment ctx times ⟨path, attempts, conclude ctx prepared blob⟩ := by
  simp only [conclude]
  split
  next => trivial
  next news => split <;> exact ⟨_, _, observes, fun _ => news⟩

theorem NewRow.stamped {info : FileInfo} (row : NewRow deployment ctx times path info)
    (now : DateTime) : NewRow deployment ctx times path { info with ingestedAt := some now } := by
  obtain ⟨hash, relativePath, observes, news⟩ := row
  exact ⟨hash, relativePath, { observes with }, news⟩

end Phases

section Steps

variable {deployment : Deployment} {ctx : FileContext} {files : SourceFiles}
  {store store' : ObjectStore} {task task' : FileTask} {action : FileAction}
  {times : List DateTime}

theorem Valid.step (valid : task.Valid deployment ctx times)
    (taken : ∀ now, observationTime? action = some now → now ∈ times)
    (stepped : task.step deployment ctx files store action = some (store', task')) :
    task'.Valid deployment ctx times := by
  unfold Valid at valid
  cases Step.of_step stepped with
  | @scan details contents scanning found =>
      have scan : Scanned task.path
          (FileInfo.scanned task.path contents.bytes.length details) :=
        ⟨rfl, contents.length_lt⟩
      simp only [scanned]
      split
      · exact scan
      · exact valid_identify scan
  | scanHash hashing =>
      simp only [hashing] at valid
      exact valid
  | scanHashed hashing =>
      simp only [hashing] at valid
      exact valid_identify ⟨valid.1, valid.2⟩
  | scanHashFailed hashing =>
      simp only [hashing] at valid
      exact valid_identify valid
  | hash hashing =>
      simp only [hashing] at valid
      exact valid
  | hashed hashing =>
      simp only [hashing] at valid
      exact valid
  | failed => trivial
  | observe observing =>
      simp only [observing] at valid
      exact valid_observe _ valid (taken _ rfl)
  | observeOffline observing offline =>
      simp only [observing] at valid
      exact ⟨_, _, valid_observe _ valid (taken _ rfl), by simp [offline]⟩
  | found verifying =>
      simp only [verifying] at valid
      exact valid_conclude .existing valid
  | missing verifying =>
      simp only [verifying] at valid
      exact ⟨valid, rfl, rfl, rfl, rfl⟩
  | missingPreview verifying =>
      simp only [verifying] at valid
      exact valid_conclude .uploaded valid
  | upload uploading moved =>
      simp only [uploading] at valid
      obtain ⟨observes, call, path, expected, expectedLen⟩ := valid
      obtain ⟨samePath, sameExpected, sameLen⟩ := UploadCall.step_arguments moved
      exact ⟨observes, call.step moved, samePath.trans path, sameExpected.trans expected,
        sameLen.trans expectedLen⟩
  | @uploaded prepared call action store' call' result uploading moved ended =>
      simp only [uploading] at valid
      rcases result with error | ⟨bytes⟩ | _
      · simp only [FileTask.uploaded]
        split <;> trivial
      · exact valid_conclude .uploaded valid.1
      · exact valid_conclude .existing valid.1
  | stamp stamping =>
      simp only [stamping] at valid
      exact NewRow.stamped valid _

theorem Valid.newRow {outcome : IngestOutcome} {info : FileInfo}
    (valid : task.Valid deployment ctx times) (returned : task.result? = some (.ok outcome))
    (shown : Pipeline.outcomeRow? outcome = some info) :
    NewRow deployment ctx times task.path info := by
  have phase := result?_eq_some_iff.mp returned
  cases outcome with
  | observed row blob =>
      cases shown
      simpa only [Valid, phase] using valid
  | unchanged blob => cases shown

theorem Linked.stored {outcome : IngestOutcome} {info : FileInfo} (linked : task.Linked store)
    (returned : task.result? = some (.ok outcome))
    (shown : Pipeline.outcomeRow? outcome = some info) : Stored store info := by
  have phase := result?_eq_some_iff.mp returned
  cases outcome with
  | observed row blob =>
      cases shown
      simpa only [Linked, phase] using linked
  | unchanged blob => cases shown

/-- The bytes of an upload that comes to its close. -/
def closingStream? (task : FileTask) : FileAction → Option (List UInt8)
  | .upload .close =>
      match task.phase with
      | .uploading _ call => some call.stream.hashed
      | _ => none
  | _ => none

theorem linked_identify (store : ObjectStore) (path : PathBuf) (attempts : Nat)
    (info : FileInfo) : Linked store ⟨path, attempts, identify ctx info⟩ := by
  simp only [identify]
  split
  · trivial
  · split <;> trivial

theorem linked_conclude {path : PathBuf} {attempts : Nat} {prepared : PreparedFile}
    (blob : BlobState) (stored : Stored store prepared.info) :
    Linked store ⟨path, attempts, conclude ctx prepared blob⟩ := by
  simp only [conclude]
  split
  · trivial
  · split <;> exact stored

theorem contentAddressed_step (addressed : ContentAddressed deployment store)
    (valid : task.Valid deployment ctx times)
    (stepped : task.step deployment ctx files store action = some (store', task')) :
    ContentAddressed deployment store' := by
  rcases step_store stepped with rfl | ⟨prepared, call, uploading, closing, rfl⟩
  · exact addressed
  · simp only [Valid, uploading] at valid
    have matching : call.Matching deployment := by
      have callValid := valid.2.1
      simpa only [UploadCall.Valid, closing] using callValid
    intro hash object held
    rcases WriteOnce.create_eq_some held with old | ⟨-, key, rfl⟩
    · exact addressed hash object old
    · rw [ContentHash.toObjectKey_injective key, matching.object_bytes, matching.hash]

theorem stored_of_uploaded {call call' : UploadCall} {uploadAction : UploadAction}
    {prepared : PreparedFile} {outcome : UploadOutcome}
    (addressed : ∀ object, store call.key = some object →
      deployment.crypto.hexDigest object.bytes = call.expected.text)
    (valid : call.Valid deployment) (expected : call.expected = prepared.contentHash)
    (expectedLen : call.expectedLen = prepared.info.sizeBytes)
    (collisionFree : ∀ object, store call.key = some object →
      deployment.crypto.sha256 object.bytes = deployment.crypto.sha256 call.stream.hashed →
      object.bytes = call.stream.hashed)
    (stepped : call.step deployment files store uploadAction = some (store', call'))
    (ended : call'.phase = .returned (.ok outcome)) : Stored store' prepared.info := by
  obtain ⟨closing, present⟩ := UploadCall.step_stored stepped ended
  have matching : call.Matching deployment := by
    simpa only [UploadCall.Valid, closing] using valid
  have size : call.stream.hashed.length = prepared.info.sizeBytes := by
    rw [← matching.synced.length, matching.length, expectedLen]
  obtain ⟨object, held⟩ := Option.ne_none_iff_exists'.mp present
  refine ⟨prepared.contentHash, object, prepared.contentHash_eq, ?_, ?_⟩
  · rw [← expected]
    exact held
  · rcases UploadCall.step_store stepped with rfl | ⟨-, rfl⟩
    · have digest := addressed object held
      have same := toLowerHex_injective (digest.trans matching.hash.symm)
      rw [collisionFree object held same, size]
    · rcases WriteOnce.create_eq_some held with old | ⟨-, -, rfl⟩
      · have digest := addressed object old
        have same := toLowerHex_injective (digest.trans matching.hash.symm)
        rw [collisionFree object old same, size]
      · rw [matching.object_bytes, size]

theorem Linked.step (linked : task.Linked store) (valid : task.Valid deployment ctx times)
    (operator : ctx.operator = true) (writes : ctx.mode.writes = true)
    (addressed : ContentAddressed deployment store)
    (collisionFree : ∀ bytes, task.closingStream? action = some bytes →
      ∀ key object, store key = some object →
      deployment.crypto.sha256 object.bytes = deployment.crypto.sha256 bytes →
      object.bytes = bytes)
    (stepped : task.step deployment ctx files store action = some (store', task')) :
    task'.Linked store' := by
  unfold Linked at linked
  unfold Valid at valid
  cases Step.of_step stepped with
  | scan =>
      simp only [scanned]
      split
      · trivial
      · exact linked_identify _ _ _ _
  | scanHashed => exact linked_identify _ _ _ _
  | scanHashFailed => exact linked_identify _ _ _ _
  | observeOffline observing offline => simp [operator] at offline
  | @found prepared verdict verifying verdictCase present =>
      obtain ⟨object, held, size⟩ := verifyExisting_found verdictCase present
      exact linked_conclude .existing ⟨_, object, prepared.contentHash_eq, held, size⟩
  | missingPreview verifying verdictCase preview => simp [writes] at preview
  | @uploaded prepared call uploadAction store' call' result uploading moved ended =>
      simp only [uploading] at valid
      obtain ⟨-, callValid, -, expected, expectedLen⟩ := valid
      rcases result with error | outcome
      · simp only [FileTask.uploaded]
        split <;> trivial
      · have stored : Stored store' prepared.info := by
          refine stored_of_uploaded (addressed call.expected) callValid expected expectedLen ?_
            moved ended
          have closing := UploadCall.action_of_stored moved ended
          exact collisionFree _ (by simp [closingStream?, closing, uploading]) _
        rcases outcome with ⟨bytes⟩ | _
        · exact linked_conclude .uploaded stored
        · exact linked_conclude .existing stored
  | @stamp info blob now stamping =>
      simp only [stamping] at linked
      obtain ⟨hash, object, named, held, size⟩ := linked
      exact ⟨hash, object, named, held, size⟩
  | _ => trivial

end Steps

end FileTask

end AntiEntropator.Ingest

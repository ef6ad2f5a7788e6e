import AntiEntropator.Ingest.ProcessFile

/-!
# What a worker step can do

The effects of the actions of `process_file`.  As for the pipeline, facts about
workers are proved by cases on `Step`.
-/

namespace AntiEntropator.Ingest.FileTask

/-- The phases in which a worker may fail on its own. -/
def MayFail (task : FileTask) : Prop :=
  match task.phase with
  | .scanning | .scanHashing _ _ | .hashing _ _ _ | .verifying _ => True
  | _ => False

inductive Step (deployment : Deployment) (ctx : FileContext) (files : SourceFiles)
    (store : ObjectStore) (task : FileTask) : FileAction → ObjectStore → FileTask → Prop where
  | scan {details contents} :
      task.phase = .scanning → files task.path = some contents →
      Step deployment ctx files store task (.scan details) store { task with
        phase := scanned ctx (FileInfo.scanned task.path contents.bytes.length details) }
  | scanHash {info read contents n} :
      task.phase = .scanHashing info read → files task.path = some contents → 0 < n →
      contents.chunk read.length n ≠ [] →
      Step deployment ctx files store task (.read n) store { task with
        phase := .scanHashing info (read ++ contents.chunk read.length n) }
  | scanHashed {info read contents n} :
      task.phase = .scanHashing info read → files task.path = some contents → 0 < n →
      contents.chunk read.length n = [] →
      Step deployment ctx files store task (.read n) store { task with
        phase := identify ctx { info with
          contentHash := some ⟨deployment.crypto.hexDigest read⟩ } }
  | scanHashFailed {info read text} :
      task.phase = .scanHashing info read →
      Step deployment ctx files store task (.readFailed text) store { task with
        phase := identify ctx info }
  | hash {info relativePath read contents n} :
      task.phase = .hashing info relativePath read → files task.path = some contents → 0 < n →
      contents.chunk read.length n ≠ [] →
      Step deployment ctx files store task (.read n) store { task with
        phase := .hashing info relativePath (read ++ contents.chunk read.length n) }
  | hashed {info relativePath read contents n} :
      task.phase = .hashing info relativePath read → files task.path = some contents → 0 < n →
      contents.chunk read.length n = [] →
      Step deployment ctx files store task (.read n) store { task with
        phase := .observing info relativePath ⟨deployment.crypto.hexDigest read⟩ }
  | failed {action} (error : Error) :
      task.MayFail →
      Step deployment ctx files store task action store { task with
        phase := .returned (.error error) }
  | observe {info relativePath hash now} :
      task.phase = .observing info relativePath hash → ctx.operator = true →
      Step deployment ctx files store task (.observe now) store { task with
        phase := .verifying (.observe deployment ctx info relativePath hash now) }
  | observeOffline {info relativePath hash now} :
      task.phase = .observing info relativePath hash → ctx.operator = false →
      Step deployment ctx files store task (.observe now) store { task with
        phase := .returned (.ok (.observed
          (PreparedFile.observe deployment ctx info relativePath hash now).info .uploaded)) }
  | found {prepared verdict} :
      task.phase = .verifying prepared →
      verifyExisting store prepared.contentHash prepared.info.sizeBytes = .ok verdict →
      verdict ≠ .missing →
      Step deployment ctx files store task .verify store { task with
        phase := conclude ctx prepared .existing }
  | missing {prepared} :
      task.phase = .verifying prepared →
      verifyExisting store prepared.contentHash prepared.info.sizeBytes = .ok .missing →
      ctx.mode.writes = true →
      Step deployment ctx files store task .verify store { task with
        phase := .uploading prepared
          ⟨task.path, prepared.contentHash, prepared.info.sizeBytes, {}, .stating⟩ }
  | missingPreview {prepared} :
      task.phase = .verifying prepared →
      verifyExisting store prepared.contentHash prepared.info.sizeBytes = .ok .missing →
      ctx.mode.writes = false →
      Step deployment ctx files store task .verify store { task with
        phase := conclude ctx prepared .uploaded }
  | upload {prepared call action store' call'} :
      task.phase = .uploading prepared call →
      call.step deployment files store action = some (store', call') →
      (∀ result, call'.phase ≠ .returned result) →
      Step deployment ctx files store task (.upload action) store' { task with
        phase := .uploading prepared call' }
  | uploaded {prepared call action store' call' result} :
      task.phase = .uploading prepared call →
      call.step deployment files store action = some (store', call') →
      call'.phase = .returned result →
      Step deployment ctx files store task (.upload action) store'
        (task.uploaded ctx prepared result)
  | stamp {info blob now} :
      task.phase = .stamping info blob →
      Step deployment ctx files store task (.stamp now) store { task with
        phase := .returned (.ok (.observed { info with ingestedAt := some now } blob)) }

theorem Step.of_step {deployment : Deployment} {ctx : FileContext} {files : SourceFiles}
    {store store' : ObjectStore} {task task' : FileTask} {action : FileAction}
    (stepped : task.step deployment ctx files store action = some (store', task')) :
    Step deployment ctx files store task action store' task' := by
  cases action with
  | scan details =>
      simp only [FileTask.step] at stepped
      split at stepped
      next contents scanning found => cases stepped; exact .scan scanning found
      next => cases stepped
  | scanFailed text =>
      simp only [FileTask.step] at stepped
      split at stepped
      next scanning => cases stepped; exact .failed _ (by simp [MayFail, scanning])
      next => cases stepped
  | read n =>
      simp only [FileTask.step] at stepped
      split at stepped
      next bounds =>
        split at stepped
        next info read contents hashing found =>
          split at stepped
          next ended => cases stepped; exact .scanHashed hashing found bounds.1 ended
          next byte rest chunk =>
            cases stepped
            rw [← chunk]
            exact .scanHash hashing found bounds.1 (by simp [chunk])
        next info relativePath read contents hashing found =>
          split at stepped
          next ended => cases stepped; exact .hashed hashing found bounds.1 ended
          next byte rest chunk =>
            cases stepped
            rw [← chunk]
            exact .hash hashing found bounds.1 (by simp [chunk])
        next => cases stepped
      next => cases stepped
  | readFailed text =>
      simp only [FileTask.step] at stepped
      split at stepped
      next info read hashing => cases stepped; exact .scanHashFailed hashing
      next info relativePath read hashing =>
        cases stepped
        exact .failed _ (by simp [MayFail, hashing])
      next => cases stepped
  | hashPanicked text =>
      simp only [FileTask.step] at stepped
      split at stepped
      next contents scanning found =>
        cases stepped
        exact .failed _ (by simp [MayFail, scanning])
      next info read hashing => cases stepped; exact .failed _ (by simp [MayFail, hashing])
      next info relativePath read hashing =>
        cases stepped
        exact .failed _ (by simp [MayFail, hashing])
      next => cases stepped
  | observe now =>
      simp only [FileTask.step] at stepped
      split at stepped
      next info relativePath hash observing =>
        cases stepped
        cases operator : ctx.operator with
        | true => exact .observe observing operator
        | false => exact .observeOffline observing operator
      next => cases stepped
  | verify =>
      simp only [FileTask.step] at stepped
      split at stepped
      next prepared verifying =>
        split at stepped
        next error verdict => cases stepped; exact .failed _ (by simp [MayFail, verifying])
        next verdict => cases stepped; exact .found verifying verdict (by simp)
        next verdict => cases stepped; exact .found verifying verdict (by simp)
        next verdict =>
          cases stepped
          cases writes : ctx.mode.writes with
          | true => exact .missing verifying verdict writes
          | false => exact .missingPreview verifying verdict writes
      next => cases stepped
  | verifyFailed text =>
      simp only [FileTask.step] at stepped
      split at stepped
      next prepared verifying => cases stepped; exact .failed _ (by simp [MayFail, verifying])
      next => cases stepped
  | upload action =>
      simp only [FileTask.step] at stepped
      split at stepped
      next prepared call uploading =>
        obtain ⟨⟨store', call'⟩, taken, same⟩ := Option.map_eq_some_iff.mp stepped
        simp only at same
        split at same
        next result returned => cases same; exact .uploaded uploading taken returned
        next waiting => cases same; exact .upload uploading taken waiting
      next => cases stepped
  | stamp now =>
      simp only [FileTask.step] at stepped
      split at stepped
      next info blob stamping => cases stepped; exact .stamp stamping
      next => cases stepped

section Effects

variable {deployment : Deployment} {ctx : FileContext} {files : SourceFiles}
  {store store' : ObjectStore} {task task' : FileTask} {action : FileAction}

theorem uploaded_path (prepared : PreparedFile) (result : Except Error UploadOutcome) :
    (task.uploaded ctx prepared result).path = task.path := by
  rcases result with error | ⟨bytes⟩ | _
  · simp only [uploaded]
    split <;> rfl
  · rfl
  · rfl

theorem step_path
    (stepped : task.step deployment ctx files store action = some (store', task')) :
    task'.path = task.path := by
  cases Step.of_step stepped with
  | uploaded => exact uploaded_path _ _
  | _ => rfl

theorem result?_of_step
    (stepped : task.step deployment ctx files store action = some (store', task')) :
    task.result? = none := by
  cases Step.of_step stepped with
  | failed error early =>
      cases phase : task.phase <;> simp [MayFail, phase] at early <;> simp [result?, phase]
  | scan phase | scanHash phase | scanHashed phase | scanHashFailed phase | hash phase
  | hashed phase | observe phase | observeOffline phase | found phase | missing phase
  | missingPreview phase | upload phase | uploaded phase | stamp phase => simp [result?, phase]

theorem step_store
    (stepped : task.step deployment ctx files store action = some (store', task')) :
    store' = store ∨ ∃ prepared call, task.phase = .uploading prepared call ∧
      call.phase = .closing ∧ store' = store.create call.key (call.object deployment) := by
  cases Step.of_step stepped with
  | upload uploading taken =>
      rcases UploadCall.step_store taken with same | ⟨closing, grown⟩
      · exact .inl same
      · exact .inr ⟨_, _, uploading, closing, grown⟩
  | uploaded uploading taken =>
      rcases UploadCall.step_store taken with same | ⟨closing, grown⟩
      · exact .inl same
      · exact .inr ⟨_, _, uploading, closing, grown⟩
  | _ => exact .inl rfl

theorem step_extends
    (stepped : task.step deployment ctx files store action = some (store', task')) :
    WriteOnce.Extends store store' := by
  rcases step_store stepped with rfl | ⟨prepared, call, -, -, rfl⟩
  · exact WriteOnce.Extends.refl _
  · exact WriteOnce.extends_create store _ _

end Effects

end AntiEntropator.Ingest.FileTask

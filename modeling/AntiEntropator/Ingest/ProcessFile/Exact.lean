import AntiEntropator.Ingest.ProcessFile.Row

/-!
# Files that do not change

While its file stays as it is, a worker measures exactly that file: what it
reports depends on the contents and on the known state, not on when it runs.
Only whether it is the one to store the blob depends on the others.
-/

namespace AntiEntropator.Ingest

def Deployment.contentHash (deployment : Deployment) (contents : Contents) : ContentHash :=
  ⟨deployment.crypto.hexDigest contents.bytes⟩

/-- The object an upload of these contents creates. -/
def Deployment.object (deployment : Deployment) (contents : Contents) : Object where
  bytes := contents.bytes
  userMetadata :=
    if deployment.writeWithUserMetadata then
      some [(metadataSha256, (deployment.contentHash contents).text),
        (metadataSize, toString contents.bytes.length)]
    else none

namespace UploadCall

variable {deployment : Deployment} {files : SourceFiles} {store store' : ObjectStore}
  {call call' : UploadCall} {action : UploadAction} {contents : Contents}

/-- A call expects the contents and has streamed the first of their bytes. -/
structure Streams (deployment : Deployment) (contents : Contents) (call : UploadCall) : Prop where
  expected : call.expected = deployment.contentHash contents
  expectedLen : call.expectedLen = contents.bytes.length
  start : call.stream.hashed <+: contents.bytes

theorem Streams.step (streams : call.Streams deployment contents) (valid : call.Valid deployment)
    (held : files call.path = some contents)
    (stepped : call.step deployment files store action = some (store', call')) :
    call'.Streams deployment contents := by
  obtain ⟨expected, expectedLen, start⟩ := streams
  cases Step.of_step stepped with
  | @read n found reading there =>
      rw [held, Option.some.injEq] at there
      subst there
      simp only [Valid, reading] at valid
      refine ⟨expected, expectedLen, ?_⟩
      simp only [absorb, valid.length]
      exact Contents.prefix_append_chunk n start
  | ended =>
      rcases finish_cases deployment call with ⟨actual, length, left⟩ | ⟨-, -, left⟩ <;>
        exact left ▸ ⟨expected, expectedLen, start⟩
  | _ => exact ⟨expected, expectedLen, start⟩

theorem Streams.object (streams : call.Streams deployment contents)
    (matching : call.Matching deployment) :
    call.object deployment = deployment.object contents := by
  have whole : call.stream.hashed = contents.bytes := by
    apply streams.start.eq_of_length
    rw [← matching.synced.length, matching.length, streams.expectedLen]
  simp only [UploadCall.object, Deployment.object, matching.synced.written, whole, streams.expected,
    streams.expectedLen]

end UploadCall

def Measured (deployment : Deployment) (contents : Contents) (info : FileInfo)
    (hash : ContentHash) : Prop :=
  info.sizeBytes = contents.bytes.length ∧ hash = deployment.contentHash contents

def Kept (deployment : Deployment) (store : ObjectStore) (contents : Contents) : Prop :=
  store (deployment.contentHash contents).toObjectKey ≠ none

theorem Kept.mono {deployment : Deployment} {store later : ObjectStore} {contents : Contents}
    (kept : Kept deployment store contents) (grows : WriteOnce.Extends store later) :
    Kept deployment later contents := by
  obtain ⟨object, held⟩ := Option.ne_none_iff_exists'.mp kept
  unfold Kept
  rw [grows _ _ held]
  simp

/-- What an outcome says about a file with these contents. -/
def Truthful (deployment : Deployment) (ctx : FileContext) (store : ObjectStore) (path : PathBuf)
    (contents : Contents) (outcome : IngestOutcome) : Prop :=
  Kept deployment store contents ∧
    match outcome with
    | .observed info _ => Measured deployment contents info (deployment.contentHash contents) ∧
        info.contentHash = some (deployment.contentHash contents)
    | .unchanged _ => ∃ relativePath,
        normalizeRelativePath (path.stripPrefix ctx.root) = .ok relativePath ∧
        decide ctx.state relativePath (deployment.contentHash contents).text = .unchanged

theorem Truthful.mono {deployment : Deployment} {ctx : FileContext} {store later : ObjectStore}
    {path : PathBuf} {contents : Contents} {outcome : IngestOutcome}
    (truthful : Truthful deployment ctx store path contents outcome)
    (grows : WriteOnce.Extends store later) :
    Truthful deployment ctx later path contents outcome :=
  ⟨truthful.1.mono grows, truthful.2⟩

namespace FileTask

/-- Nothing of the file has been used, or the worker has failed. -/
def Blank : FilePhase → Prop
  | .scanning | .returned (.error _) => True
  | _ => False

def Knows (deployment : Deployment) (ctx : FileContext) (store : ObjectStore) (path : PathBuf)
    (contents : Contents) : FilePhase → Prop
  | .scanning | .returned (.error _) => False
  | .scanHashing info read =>
      info.sizeBytes = contents.bytes.length ∧ info.contentHash = none ∧ read <+: contents.bytes
  | .hashing info _ read => info.sizeBytes = contents.bytes.length ∧ read <+: contents.bytes
  | .observing info _ hash => Measured deployment contents info hash
  | .verifying prepared => Measured deployment contents prepared.info prepared.contentHash
  | .uploading prepared call =>
      Measured deployment contents prepared.info prepared.contentHash ∧
        call.Streams deployment contents
  | .stamping info blob => Truthful deployment ctx store path contents (.observed info blob)
  | .returned (.ok outcome) => Truthful deployment ctx store path contents outcome

/-- What a worker says is exact, as long as its file does not change. -/
def Exact (deployment : Deployment) (ctx : FileContext) (files : SourceFiles)
    (store : ObjectStore) (task : FileTask) : Prop :=
  Blank task.phase ∨ ∃ contents, files task.path = some contents ∧
    Knows deployment ctx store task.path contents task.phase

section Phases

variable {deployment : Deployment} {ctx : FileContext} {files : SourceFiles}
  {store later : ObjectStore} {path : PathBuf} {attempts : Nat} {contents : Contents}

theorem Exact.mono {task : FileTask} (exact : task.Exact deployment ctx files store)
    (grows : WriteOnce.Extends store later) : task.Exact deployment ctx files later := by
  refine exact.imp_right fun ⟨contents, held, knows⟩ => ⟨contents, held, ?_⟩
  unfold Knows at knows ⊢
  split at knows
  next => exact knows
  next => exact knows
  next => exact knows
  next => exact knows
  next => exact knows
  next => exact knows
  next => exact knows
  next => exact knows.mono grows
  next => exact knows.mono grows

theorem exact_identify {info : FileInfo} (held : files path = some contents)
    (size : info.sizeBytes = contents.bytes.length)
    (hash : ∀ hash, info.contentHash = some hash → hash = deployment.contentHash contents) :
    Exact deployment ctx files store ⟨path, attempts, identify ctx info⟩ := by
  simp only [identify]
  split
  next => exact .inl trivial
  next relativePath normalized =>
    refine .inr ⟨contents, held, ?_⟩
    cases found : info.contentHash with
    | none => exact ⟨size, List.nil_prefix⟩
    | some scanned => exact ⟨size, hash scanned found⟩

theorem exact_conclude {prepared : PreparedFile} (blob : BlobState)
    (held : files path = some contents)
    (measured : Measured deployment contents prepared.info prepared.contentHash)
    (normalized : normalizeRelativePath (path.stripPrefix ctx.root) = .ok prepared.relativePath)
    (kept : Kept deployment store contents) :
    Exact deployment ctx files store ⟨path, attempts, conclude ctx prepared blob⟩ := by
  obtain ⟨size, hash⟩ := measured
  have named : prepared.info.contentHash = some (deployment.contentHash contents) := by
    rw [prepared.contentHash_eq, hash]
  refine .inr ⟨contents, held, ?_⟩
  simp only [conclude]
  split
  next unchanged =>
    rw [hash] at unchanged
    exact ⟨kept, _, normalized, unchanged⟩
  next => split <;> exact ⟨kept, ⟨size, rfl⟩, named⟩

end Phases

section Steps

variable {deployment : Deployment} {ctx : FileContext} {files : SourceFiles}
  {store store' : ObjectStore} {task task' : FileTask} {action : FileAction}
  {times : List DateTime}

theorem Exact.step (exact : task.Exact deployment ctx files store)
    (valid : task.Valid deployment ctx times) (operator : ctx.operator = true)
    (writes : ∀ prepared, task.phase = .verifying prepared → ctx.mode.writes = true)
    (stepped : task.step deployment ctx files store action = some (store', task')) :
    task'.Exact deployment ctx files store' := by
  unfold Exact at exact
  unfold Valid at valid
  cases Step.of_step stepped with
  | @scan details contents scanning found =>
      simp only [scanned]
      split
      · exact .inr ⟨contents, found, rfl, rfl, List.nil_prefix⟩
      · exact exact_identify found rfl (by simp [FileInfo.scanned])
  | scanHash hashing found =>
      simp only [hashing, Blank, Knows, found, false_or, Option.some.injEq,
        exists_eq_left'] at exact
      exact .inr ⟨_, found, exact.1, exact.2.1, Contents.prefix_append_chunk _ exact.2.2⟩
  | scanHashed hashing found positive ended =>
      simp only [hashing, Blank, Knows, found, false_or, Option.some.injEq,
        exists_eq_left'] at exact
      refine exact_identify found exact.1 ?_
      rintro hash ⟨⟩
      rw [Contents.eq_of_chunk_eq_nil positive exact.2.2 ended]
      rfl
  | scanHashFailed hashing =>
      simp only [hashing, Blank, Knows, false_or] at exact
      obtain ⟨contents, held, size, unhashed, -⟩ := exact
      exact exact_identify held size (by simp [unhashed])
  | hash hashing found =>
      simp only [hashing, Blank, Knows, found, false_or, Option.some.injEq,
        exists_eq_left'] at exact
      exact .inr ⟨_, found, exact.1, Contents.prefix_append_chunk _ exact.2⟩
  | hashed hashing found positive ended =>
      simp only [hashing, Blank, Knows, found, false_or, Option.some.injEq,
        exists_eq_left'] at exact
      refine .inr ⟨_, found, exact.1, ?_⟩
      rw [Contents.eq_of_chunk_eq_nil positive exact.2 ended]
      rfl
  | failed => exact .inl trivial
  | observe observing =>
      simp only [observing, Blank, Knows, false_or] at exact
      exact .inr exact
  | observeOffline observing offline => simp [operator] at offline
  | @found prepared verdict verifying verdictCase present =>
      simp only [verifying, Blank, Knows, false_or] at exact
      simp only [verifying] at valid
      obtain ⟨contents, held, measured⟩ := exact
      obtain ⟨object, stored, -⟩ := verifyExisting_found verdictCase present
      apply exact_conclude .existing held measured valid.normalized
      unfold Kept
      rw [← measured.2, stored]
      simp
  | missing verifying =>
      simp only [verifying, Blank, Knows, false_or] at exact
      obtain ⟨contents, held, measured⟩ := exact
      exact .inr ⟨contents, held, measured, measured.2, measured.1, List.nil_prefix⟩
  | missingPreview verifying verdictCase preview => simp [writes _ verifying] at preview
  | upload uploading moved =>
      simp only [uploading, Blank, Knows, false_or] at exact
      simp only [uploading] at valid
      obtain ⟨contents, held, measured, streams⟩ := exact
      obtain ⟨-, callValid, path, -⟩ := valid
      exact .inr ⟨contents, held, measured, streams.step callValid (path ▸ held) moved⟩
  | @uploaded prepared call uploadAction store' call' result uploading moved ended =>
      simp only [uploading, Blank, Knows, false_or] at exact
      simp only [uploading] at valid
      obtain ⟨contents, held, measured, streams⟩ := exact
      rcases result with error | outcome
      · simp only [FileTask.uploaded]
        split <;> exact .inl trivial
      · have kept : Kept deployment store' contents := by
          unfold Kept
          rw [← streams.expected]
          exact (UploadCall.step_stored moved ended).2
        rcases outcome with ⟨bytes⟩ | _
        · exact exact_conclude .uploaded held measured valid.1.normalized kept
        · exact exact_conclude .existing held measured valid.1.normalized kept
  | stamp stamping =>
      simp only [stamping, Blank, Knows, false_or] at exact
      exact .inr exact

theorem Exact.truthful {outcome : IngestOutcome} (exact : task.Exact deployment ctx files store)
    (returned : task.result? = some (.ok outcome)) :
    ∃ contents, files task.path = some contents ∧
      Truthful deployment ctx store task.path contents outcome := by
  simpa only [Exact, result?_eq_some_iff.mp returned, Blank, Knows, false_or] using exact

theorem Exact.closing {prepared : PreparedFile} {call : UploadCall}
    (exact : task.Exact deployment ctx files store) (valid : task.Valid deployment ctx times)
    (uploading : task.phase = .uploading prepared call) (closing : call.phase = .closing) :
    ∃ contents, files task.path = some contents ∧
      call.key = (deployment.contentHash contents).toObjectKey ∧
      call.object deployment = deployment.object contents := by
  simp only [Exact, uploading, Blank, Knows, false_or] at exact
  simp only [Valid, uploading, UploadCall.Valid, closing] at valid
  obtain ⟨contents, held, -, streams⟩ := exact
  exact ⟨contents, held, by rw [UploadCall.key, streams.expected], streams.object valid.2.1⟩

end Steps

/-! ## Who stores the blob -/

/-- The worker counts its blob as uploaded. -/
def credited (task : FileTask) : Bool :=
  match task.phase with
  | .stamping _ blob => blob = .uploaded
  | .returned (.ok outcome) => Pipeline.outcomeBlob outcome = .uploaded
  | _ => false

section Credit

variable {deployment : Deployment} {ctx : FileContext} {files : SourceFiles}
  {store store' : ObjectStore} {task task' : FileTask} {action : FileAction}

theorem credited_of_result {outcome : IngestOutcome}
    (returned : task.result? = some (.ok outcome)) :
    task.credited = Decidable.decide (Pipeline.outcomeBlob outcome = .uploaded) := by
  simp [credited, result?_eq_some_iff.mp returned]

@[simp]
theorem credited_identify (path : PathBuf) (attempts : Nat) (info : FileInfo) :
    credited ⟨path, attempts, identify ctx info⟩ = false := by
  simp only [identify]
  split
  · rfl
  · split <;> rfl

@[simp]
theorem credited_conclude (path : PathBuf) (attempts : Nat) (prepared : PreparedFile)
    (blob : BlobState) :
    credited ⟨path, attempts, conclude ctx prepared blob⟩ =
      Decidable.decide (blob = .uploaded) := by
  simp only [conclude]
  split
  · rfl
  · split <;> rfl

theorem credited_uploaded_error (prepared : PreparedFile) (error : Error) :
    (task.uploaded ctx prepared (.error error)).credited = false := by
  simp only [uploaded]
  split <;> rfl

/-- A blob appears when an upload closes; its worker is credited or fails. -/
theorem step_credited (operator : ctx.operator = true) (writes : ctx.mode.writes = true)
    (stepped : task.step deployment ctx files store action = some (store', task')) :
    (store' = store ∧ task'.credited = task.credited) ∨
      ∃ prepared call, task.phase = .uploading prepared call ∧ call.phase = .closing ∧
        store call.key = none ∧
        store' = Function.update store call.key (some (call.object deployment)) ∧
        (task'.credited = true ∨ ∃ error, task'.result? = some (.error error)) := by
  -- a step within the worker
  have inner : ∀ later : FileTask, task.credited = false → later.credited = false →
      (store = store ∧ later.credited = task.credited) :=
    fun later before after => ⟨rfl, after.trans before.symm⟩
  cases Step.of_step stepped with
  | scan scanning =>
      refine .inl (inner _ (by simp [credited, scanning]) ?_)
      simp only [scanned]
      split
      · rfl
      · exact credited_identify _ _ _
  | scanHash hashing => exact .inl (inner _ (by simp [credited, hashing]) rfl)
  | scanHashed hashing =>
      exact .inl (inner _ (by simp [credited, hashing]) (credited_identify _ _ _))
  | scanHashFailed hashing =>
      exact .inl (inner _ (by simp [credited, hashing]) (credited_identify _ _ _))
  | hash hashing => exact .inl (inner _ (by simp [credited, hashing]) rfl)
  | hashed hashing => exact .inl (inner _ (by simp [credited, hashing]) rfl)
  | failed error early =>
      refine .inl (inner _ ?_ rfl)
      cases phase : task.phase <;> simp [MayFail, phase] at early <;> simp [credited, phase]
  | observe observing => exact .inl (inner _ (by simp [credited, observing]) rfl)
  | observeOffline observing offline => simp [operator] at offline
  | found verifying =>
      exact .inl (inner _ (by simp [credited, verifying]) (credited_conclude _ _ _ _))
  | missing verifying => exact .inl (inner _ (by simp [credited, verifying]) rfl)
  | missingPreview verifying verdictCase preview => simp [writes] at preview
  | @upload prepared call uploadAction store' call' uploading moved waiting =>
      refine .inl ⟨?_, by simp [credited, uploading]⟩
      cases UploadCall.Step.of_step moved with
      | closed => exact (waiting _ rfl).elim
      | closeFailed => exact (waiting _ rfl).elim
      | _ => rfl
  | @uploaded prepared call uploadAction store' call' result uploading moved ended =>
      have before : task.credited = false := by simp [credited, uploading]
      rw [before]
      cases UploadCall.Step.of_step moved with
      | advance phase entered =>
          rcases entered with ⟨-, rfl⟩ | ⟨-, rfl⟩ | ⟨-, rfl⟩ <;> cases ended
      | failed =>
          cases ended
          exact .inl ⟨rfl, credited_uploaded_error _ _⟩
      | read => cases ended
      | ended =>
          rcases UploadCall.finish_cases deployment call with
            ⟨actual, length, left⟩ | ⟨-, -, left⟩ <;>
            simp [left] at ended
      | write => cases ended
      | streamFailed => cases ended
      | closed closing free =>
          cases ended
          refine .inr ⟨prepared, call, uploading, closing, free, ?_, ?_⟩
          · exact WriteOnce.create_of_free free _
          · exact .inl (credited_conclude _ _ _ _)
      | lost =>
          cases ended
          exact .inl ⟨rfl, credited_conclude _ _ _ _⟩
      | @closeFailed landed text closing =>
          cases ended
          cases slot : store call.key with
          | some object =>
              refine .inl ⟨?_, credited_uploaded_error _ _⟩
              rw [WriteOnce.create_of_taken slot, ite_self]
          | none =>
              cases landed with
              | false => exact .inl ⟨rfl, credited_uploaded_error _ _⟩
              | true =>
                  refine .inr ⟨prepared, call, uploading, closing, slot, ?_, ?_⟩
                  · exact WriteOnce.create_of_free slot _
                  · exact .inr ⟨_, rfl⟩
      | aborted =>
          cases ended
          exact .inl ⟨rfl, credited_uploaded_error _ _⟩
  | stamp stamping =>
      refine .inl ⟨rfl, ?_⟩
      simp only [credited, stamping]
      rfl

end Credit

end FileTask

end AntiEntropator.Ingest

import AntiEntropator.Ingest.Upload

/-!
# What one upload guarantees

Through every await the hasher has seen what the writer was given, and a call
closes only when that matches its expectation.  The only effect on the store is
the creation of the object under the call's key.
-/

namespace AntiEntropator.Ingest

/-- Hasher, counter and writer have seen the same bytes. -/
structure Stream.Synced (stream : Stream) : Prop where
  written : stream.written = stream.hashed
  length : stream.actualLen = stream.hashed.length

namespace UploadCall

structure Matching (deployment : Deployment) (call : UploadCall) : Prop where
  synced : call.stream.Synced
  hash : deployment.crypto.hexDigest call.stream.hashed = call.expected.text
  length : call.stream.actualLen = call.expectedLen

/-- What holds of a call at each of its awaits. -/
def Valid (deployment : Deployment) (call : UploadCall) : Prop :=
  match call.phase with
  | .stating | .opening | .openingWriter => call.stream = {}
  | .reading => call.stream.Synced
  | .writing chunk =>
      call.stream.written ++ chunk = call.stream.hashed ∧
        call.stream.actualLen = call.stream.hashed.length
  | .closing | .returned (.ok .alreadyExists) => call.Matching deployment
  | .returned (.ok (.uploaded bytes)) => call.Matching deployment ∧ bytes = call.expectedLen
  | .aborting _ | .returned (.error _) => True

inductive Step (deployment : Deployment) (files : SourceFiles) (store : ObjectStore)
    (call : UploadCall) : UploadAction → ObjectStore → UploadCall → Prop where
  | advance {action} (phase : UploadPhase) :
      (call.phase = .stating ∧ phase = .opening ∨ call.phase = .opening ∧ phase = .openingWriter ∨
        call.phase = .openingWriter ∧ phase = .reading) →
      Step deployment files store call action store { call with phase }
  | failed {action} (error : Error) :
      (call.phase = .stating ∨ call.phase = .opening ∨ call.phase = .openingWriter) →
      Step deployment files store call action store { call with phase := .returned (.error error) }
  | read {n contents} :
      call.phase = .reading → files call.path = some contents → 0 < n →
      contents.chunk call.stream.actualLen n ≠ [] →
      Step deployment files store call (.read n) store
        (call.absorb (contents.chunk call.stream.actualLen n))
  | ended {n contents} :
      call.phase = .reading → files call.path = some contents → 0 < n →
      contents.chunk call.stream.actualLen n = [] →
      Step deployment files store call (.read n) store (call.finish deployment)
  | write {chunk} :
      call.phase = .writing chunk →
      Step deployment files store call .write store { call with
        stream := { call.stream with written := call.stream.written ++ chunk }
        phase := .reading }
  | streamFailed {action} (error : Error) :
      (call.phase = .reading ∨ ∃ chunk, call.phase = .writing chunk) →
      Step deployment files store call action store { call with phase := .aborting error }
  | closed :
      call.phase = .closing → store call.key = none →
      Step deployment files store call .close (store.create call.key (call.object deployment))
        { call with phase := .returned (.ok (.uploaded call.stream.actualLen)) }
  | lost {object} :
      call.phase = .closing → store call.key = some object →
      Step deployment files store call .close store
        { call with phase := .returned (.ok .alreadyExists) }
  | closeFailed {landed text} :
      call.phase = .closing →
      Step deployment files store call (.closeFailed landed text)
        (if landed then store.create call.key (call.object deployment) else store)
        { call with
          phase := .returned (.error ((Error.msg text).context
            ("Failed to finalize upload of " ++ call.key))) }
  | aborted {error} :
      call.phase = .aborting error →
      Step deployment files store call .abort store
        { call with phase := .returned (.error error) }

theorem Step.of_step {deployment : Deployment} {files : SourceFiles} {store store' : ObjectStore}
    {call call' : UploadCall} {action : UploadAction}
    (stepped : call.step deployment files store action = some (store', call')) :
    Step deployment files store call action store' call' := by
  cases action with
  | stat =>
      simp only [UploadCall.step] at stepped
      split at stepped
      next contents stating found =>
        split at stepped
        next => cases stepped; exact .advance _ (.inl ⟨stating, rfl⟩)
        next => cases stepped; exact .failed _ (.inl stating)
      next => cases stepped
  | statFailed text =>
      simp only [UploadCall.step] at stepped
      split at stepped
      next stating => cases stepped; exact .failed _ (.inl stating)
      next => cases stepped
  | «open» =>
      simp only [UploadCall.step] at stepped
      split at stepped
      next contents opening found => cases stepped; exact .advance _ (.inr (.inl ⟨opening, rfl⟩))
      next => cases stepped
  | openFailed text =>
      simp only [UploadCall.step] at stepped
      split at stepped
      next opening => cases stepped; exact .failed _ (.inr (.inl opening))
      next => cases stepped
  | openWriter =>
      simp only [UploadCall.step] at stepped
      split at stepped
      next opening => cases stepped; exact .advance _ (.inr (.inr ⟨opening, rfl⟩))
      next => cases stepped
  | openWriterFailed text =>
      simp only [UploadCall.step] at stepped
      split at stepped
      next opening => cases stepped; exact .failed _ (.inr (.inr opening))
      next => cases stepped
  | read n =>
      simp only [UploadCall.step] at stepped
      split at stepped
      next contents reading found =>
        split at stepped
        next bounds =>
          split at stepped
          next ended => cases stepped; exact .ended reading found bounds.1 ended
          next byte rest chunk =>
            cases stepped
            rw [← chunk]
            exact .read reading found bounds.1 (by simp [chunk])
        next => cases stepped
      next => cases stepped
  | readFailed text =>
      simp only [UploadCall.step] at stepped
      split at stepped
      next reading => cases stepped; exact .streamFailed _ (.inl reading)
      next => cases stepped
  | write =>
      simp only [UploadCall.step] at stepped
      split at stepped
      next chunk writing => cases stepped; exact .write writing
      next => cases stepped
  | writeFailed text =>
      simp only [UploadCall.step] at stepped
      split at stepped
      next chunk writing => cases stepped; exact .streamFailed _ (.inr ⟨chunk, writing⟩)
      next => cases stepped
  | close =>
      simp only [UploadCall.step] at stepped
      split at stepped
      next closing free => cases stepped; exact .closed closing free
      next object closing taken => cases stepped; exact .lost closing taken
      next => cases stepped
  | closeFailed landed text =>
      simp only [UploadCall.step] at stepped
      split at stepped
      next closing => cases stepped; exact .closeFailed closing
      next => cases stepped
  | abort =>
      simp only [UploadCall.step] at stepped
      split at stepped
      next error aborting => cases stepped; exact .aborted aborting
      next => cases stepped

theorem finish_cases (deployment : Deployment) (call : UploadCall) :
    (∃ actual length, call.finish deployment =
      { call with phase := .aborting (call.sourceChanged (some actual) length) }) ∨
    (deployment.crypto.hexDigest call.stream.hashed = call.expected.text ∧
      call.stream.actualLen = call.expectedLen ∧
      call.finish deployment = { call with phase := .closing }) := by
  simp only [finish]
  split
  next => exact .inl ⟨_, _, rfl⟩
  next same =>
    obtain ⟨hash, length⟩ := not_or.mp same
    exact .inr ⟨not_not.mp hash, not_not.mp length, rfl⟩

section Effects

variable {deployment : Deployment} {files : SourceFiles} {store store' : ObjectStore}
  {call call' : UploadCall} {action : UploadAction}

theorem step_arguments (stepped : call.step deployment files store action = some (store', call')) :
    call'.path = call.path ∧ call'.expected = call.expected ∧
      call'.expectedLen = call.expectedLen := by
  cases Step.of_step stepped with
  | ended =>
      rcases finish_cases deployment call with ⟨actual, length, left⟩ | ⟨-, -, left⟩ <;>
        exact left ▸ ⟨rfl, rfl, rfl⟩
  | _ => exact ⟨rfl, rfl, rfl⟩

theorem Valid.step (valid : call.Valid deployment)
    (stepped : call.step deployment files store action = some (store', call')) :
    call'.Valid deployment := by
  unfold Valid at valid
  cases Step.of_step stepped with
  | advance phase moved =>
      rcases moved with ⟨before, rfl⟩ | ⟨before, rfl⟩ | ⟨before, rfl⟩ <;>
        simp only [before] at valid
      · exact valid
      · exact valid
      · simp only [Valid, valid]
        exact ⟨rfl, rfl⟩
  | failed => trivial
  | @read n contents reading found =>
      simp only [reading] at valid
      simp only [Valid, absorb, valid.written, valid.length, List.length_append, and_self]
  | ended reading =>
      simp only [reading] at valid
      rcases finish_cases deployment call with ⟨actual, length, left⟩ | ⟨hash, length, left⟩
      · rw [left]
        trivial
      · rw [left]
        exact ⟨valid, hash, length⟩
  | write writing =>
      simp only [writing] at valid
      exact ⟨valid.1, valid.2⟩
  | streamFailed => trivial
  | closed closing =>
      simp only [closing] at valid
      exact ⟨⟨valid.synced, valid.hash, valid.length⟩, valid.length⟩
  | lost closing =>
      simp only [closing] at valid
      exact ⟨valid.synced, valid.hash, valid.length⟩
  | closeFailed => trivial
  | aborted => trivial

theorem step_store (stepped : call.step deployment files store action = some (store', call')) :
    store' = store ∨
      call.phase = .closing ∧ store' = store.create call.key (call.object deployment) := by
  cases Step.of_step stepped with
  | closed closing => exact .inr ⟨closing, rfl⟩
  | @closeFailed landed text closing =>
      cases landed with
      | false => exact .inl rfl
      | true => exact .inr ⟨closing, rfl⟩
  | _ => exact .inl rfl

theorem step_extends (stepped : call.step deployment files store action = some (store', call')) :
    WriteOnce.Extends store store' := by
  rcases step_store stepped with rfl | ⟨-, rfl⟩
  · exact WriteOnce.Extends.refl _
  · exact WriteOnce.extends_create store _ _

theorem step_stored (stepped : call.step deployment files store action = some (store', call'))
    {outcome : UploadOutcome} (ended : call'.phase = .returned (.ok outcome)) :
    call.phase = .closing ∧ store' call.key ≠ none := by
  cases Step.of_step stepped with
  | advance phase moved =>
      rcases moved with ⟨-, rfl⟩ | ⟨-, rfl⟩ | ⟨-, rfl⟩ <;> cases ended
  | ended =>
      rcases finish_cases deployment call with ⟨actual, length, left⟩ | ⟨-, -, left⟩ <;>
        simp [left] at ended
  | closed closing free =>
      refine ⟨closing, ?_⟩
      rw [WriteOnce.create_self free]
      simp
  | lost closing taken =>
      refine ⟨closing, ?_⟩
      rw [taken]
      simp
  | _ => cases ended

theorem action_of_stored (stepped : call.step deployment files store action = some (store', call'))
    {outcome : UploadOutcome} (ended : call'.phase = .returned (.ok outcome)) :
    action = .close := by
  cases Step.of_step stepped with
  | advance phase moved =>
      rcases moved with ⟨-, rfl⟩ | ⟨-, rfl⟩ | ⟨-, rfl⟩ <;> cases ended
  | ended =>
      rcases finish_cases deployment call with ⟨actual, length, left⟩ | ⟨-, -, left⟩ <;>
        simp [left] at ended
  | closed => rfl
  | lost => rfl
  | _ => cases ended

theorem store_of_waiting (stepped : call.step deployment files store action = some (store', call'))
    (waiting : ∀ result, call'.phase ≠ .returned result) : store' = store := by
  cases Step.of_step stepped with
  | closed => exact (waiting _ rfl).elim
  | closeFailed => exact (waiting _ rfl).elim
  | _ => rfl

/-- The object of a closing call is the content its key names. -/
theorem Matching.object_bytes (matching : call.Matching deployment) :
    (call.object deployment).bytes = call.stream.hashed := matching.synced.written

end Effects

end UploadCall

end AntiEntropator.Ingest

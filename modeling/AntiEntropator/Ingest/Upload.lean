import AntiEntropator.Domain.Error
import AntiEntropator.Storage

/-!
# Mutation-safe content-addressed upload

`upload_verified` and `verify_existing`.  An upload is a machine that stops at
each of its awaits, so that source files and the store may change in between;
what the environment decides (how much a read returns, whether a call fails)
is in the actions.
-/

namespace AntiEntropator.Ingest

/-- What is fixed for all runs: the libraries, the bucket, and whether its
service keeps user metadata. -/
structure Deployment where
  crypto : Crypto
  bucket : String
  writeWithUserMetadata : Bool

def metadataSha256 : String := "sha256"
def metadataSize : String := "size"

def readBufferBytes : Nat := 64 * 1024

inductive UploadOutcome where
  | uploaded : Nat → UploadOutcome
  | alreadyExists
  deriving DecidableEq

/-- The bytes read so far, as the hasher and the writer have seen them. -/
structure Stream where
  hashed : List UInt8 := []
  actualLen : Nat := 0
  written : List UInt8 := []
  deriving DecidableEq

inductive UploadPhase where
  | stating
  | opening
  | openingWriter
  | reading
  | writing (chunk : List UInt8)
  | closing
  | aborting (error : Error)
  | returned (result : Except Error UploadOutcome)
  deriving DecidableEq

/-- A call `upload_verified(op, path, expected, expected_len)`. -/
structure UploadCall where
  path : PathBuf
  expected : ContentHash
  expectedLen : Nat
  stream : Stream := {}
  phase : UploadPhase := .stating
  deriving DecidableEq

inductive UploadAction where
  | stat
  | statFailed (text : String)
  | open
  | openFailed (text : String)
  | openWriter
  | openWriterFailed (text : String)
  | read (n : Nat)
  | readFailed (text : String)
  | write
  | writeFailed (text : String)
  | close
  /-- `close` fails with another error; its request may have taken effect. -/
  | closeFailed (landed : Bool) (text : String)
  | abort
  deriving DecidableEq

namespace UploadCall

def key (call : UploadCall) : String := call.expected.toObjectKey

/-- What the writer materializes. -/
def object (deployment : Deployment) (call : UploadCall) : Object where
  bytes := call.stream.written
  userMetadata :=
    if deployment.writeWithUserMetadata then
      some [(metadataSha256, call.expected.text), (metadataSize, toString call.expectedLen)]
    else none

def sourceChanged (call : UploadCall) (actualHash : Option String) (actualLen : Nat) : Error :=
  .ofCause (.sourceChanged ⟨call.expected.text, actualHash, call.expectedLen, actualLen⟩)

/-- The streaming loop is left: compare what was read with what was expected. -/
def finish (deployment : Deployment) (call : UploadCall) : UploadCall :=
  let actualHash := deployment.crypto.hexDigest call.stream.hashed
  if actualHash ≠ call.expected.text ∨ call.stream.actualLen ≠ call.expectedLen then
    { call with phase := .aborting (call.sourceChanged (some actualHash) call.stream.actualLen) }
  else { call with phase := .closing }

/-- One turn of the loop up to its write. -/
def absorb (call : UploadCall) (chunk : List UInt8) : UploadCall :=
  { call with
    stream := { call.stream with
      hashed := call.stream.hashed ++ chunk
      actualLen := call.stream.actualLen + chunk.length }
    phase := .writing chunk }

def step (deployment : Deployment) (files : SourceFiles) (store : ObjectStore)
    (call : UploadCall) : UploadAction → Option (ObjectStore × UploadCall)
  | .stat =>
      match call.phase, files call.path with
      | .stating, some contents =>
          if contents.bytes.length = call.expectedLen then
            some (store, { call with phase := .opening })
          else
            some (store, { call with
              phase := .returned (.error (call.sourceChanged none contents.bytes.length)) })
      | _, _ => none
  | .statFailed text =>
      match call.phase with
      | .stating => some (store, { call with
          phase := .returned (.error ((Error.msg text).context
            ("Failed to stat source file " ++ call.path.display))) })
      | _ => none
  | .open =>
      match call.phase, files call.path with
      | .opening, some _ => some (store, { call with phase := .openingWriter })
      | _, _ => none
  | .openFailed text =>
      match call.phase with
      | .opening => some (store, { call with
          phase := .returned (.error ((Error.msg text).context
            ("Failed to open source file " ++ call.path.display))) })
      | _ => none
  | .openWriter =>
      match call.phase with
      | .openingWriter => some (store, { call with phase := .reading })
      | _ => none
  | .openWriterFailed text =>
      match call.phase with
      | .openingWriter => some (store, { call with
          phase := .returned (.error ((Error.msg text).context
            ("Failed to open storage writer for " ++ call.key))) })
      | _ => none
  | .read n =>
      match call.phase, files call.path with
      | .reading, some contents =>
          if 0 < n ∧ n ≤ readBufferBytes then
            match contents.chunk call.stream.actualLen n with
            | [] => some (store, call.finish deployment)
            | byte :: rest => some (store, call.absorb (byte :: rest))
          else none
      | _, _ => none
  | .readFailed text =>
      match call.phase with
      | .reading => some (store, { call with
          phase := .aborting ((Error.msg text).context ("Failed to read " ++ call.path.display)) })
      | _ => none
  | .write =>
      match call.phase with
      | .writing chunk => some (store, { call with
          stream := { call.stream with written := call.stream.written ++ chunk }
          phase := .reading })
      | _ => none
  | .writeFailed text =>
      match call.phase with
      | .writing _ => some (store, { call with
          phase := .aborting ((Error.msg text).context
            ("Failed to stream " ++ call.path.display ++ " to " ++ call.key)) })
      | _ => none
  | .close =>
      match call.phase, store call.key with
      | .closing, none =>
          some (store.create call.key (call.object deployment),
            { call with phase := .returned (.ok (.uploaded call.stream.actualLen)) })
      | .closing, some _ =>
          some (store, { call with phase := .returned (.ok .alreadyExists) })
      | _, _ => none
  | .closeFailed landed text =>
      match call.phase with
      | .closing =>
          some (if landed then store.create call.key (call.object deployment) else store,
            { call with
              phase := .returned (.error ((Error.msg text).context
                ("Failed to finalize upload of " ++ call.key))) })
      | _ => none
  | .abort =>
      match call.phase with
      | .aborting error => some (store, { call with phase := .returned (.error error) })
      | _ => none

end UploadCall

/-! ## Verifying a stored object -/

/-- What `verify_existing` finds under a key. -/
inductive BlobVerdict where
  | missing
  | verified
  | legacy
  deriving DecidableEq

/-- Check whether the object for `expected` exists and matches the local file's
size and, when the object carries it, its hash. -/
def verifyExisting (store : ObjectStore) (expected : ContentHash) (expectedLen : Nat) :
    Except Error BlobVerdict :=
  let key := expected.toObjectKey
  match store key with
  | none => .ok .missing
  | some object =>
      if object.bytes.length ≠ expectedLen then
        .error (.ofCause (.integrityMismatch
          ⟨key, "size", toString object.bytes.length, toString expectedLen⟩))
      else
        match object.userMetadata.bind (List.lookup metadataSha256) with
        | some stored =>
            if stored = expected.text then .ok .verified
            else .error (.ofCause (.integrityMismatch ⟨key, "sha256", stored, expected.text⟩))
        | none => .ok .legacy

theorem verifyExisting_found {store : ObjectStore} {expected : ContentHash} {expectedLen : Nat}
    {verdict : BlobVerdict} (found : verifyExisting store expected expectedLen = .ok verdict)
    (present : verdict ≠ .missing) :
    ∃ object, store expected.toObjectKey = some object ∧ object.bytes.length = expectedLen := by
  simp only [verifyExisting] at found
  split at found
  next absent => exact absurd (Except.ok.inj found).symm present
  next object held =>
    split at found
    next => cases found
    next size => exact ⟨object, held, not_not.mp size⟩

theorem verifyExisting_missing {store : ObjectStore} {expected : ContentHash} {expectedLen : Nat}
    (found : verifyExisting store expected expectedLen = .ok .missing) :
    store expected.toObjectKey = none := by
  simp only [verifyExisting] at found
  split at found
  next absent => exact absent
  next object held =>
    split at found
    next => cases found
    next =>
      split at found
      next => split at found <;> cases found
      next => cases found

end AntiEntropator.Ingest

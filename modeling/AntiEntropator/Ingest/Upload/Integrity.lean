import AntiEntropator.GuardedMachine.Basic
import AntiEntropator.Ingest.Upload.Call
import Mathlib.Data.Set.Function

/-!
# Integrity of the content-addressed store

Any number of uploads, interleaved at each of their awaits with each other and
with arbitrary edits of the source files.  The store only grows, and whatever
it gains is the content its key names.
-/

namespace AntiEntropator.Ingest

namespace Uploads

structure State where
  files : SourceFiles
  store : ObjectStore
  calls : List UploadCall

inductive Action where
  /-- `upload_verified` is called. -/
  | begin (path : PathBuf) (expected : ContentHash) (expectedLen : Nat)
  /-- A call passes its next await. -/
  | call (index : Nat) (action : UploadAction)
  /-- Somebody rewrites or removes a file. -/
  | edit (path : PathBuf) (contents : Option Contents)
  deriving DecidableEq

def step (deployment : Deployment) (state : State) : Action → Option State
  | .begin path expected expectedLen =>
      some { state with
        calls := state.calls ++ [{ path, expected, expectedLen }] }
  | .call index action =>
      match state.calls[index]? with
      | none => none
      | some call =>
          (call.step deployment state.files state.store action).map fun (store, call) =>
            { state with store, calls := state.calls.set index call }
  | .edit path contents => some { state with files := Function.update state.files path contents }

def machine (deployment : Deployment) : GuardedMachine State Action where
  step := step deployment

inductive Step (deployment : Deployment) (state : State) : Action → State → Prop where
  | begin {path expected expectedLen} :
      Step deployment state (.begin path expected expectedLen)
        { state with calls := state.calls ++ [{ path, expected, expectedLen }] }
  | call {index action call store' call'} :
      state.calls[index]? = some call →
      call.step deployment state.files state.store action = some (store', call') →
      Step deployment state (.call index action)
        { state with store := store', calls := state.calls.set index call' }
  | edit {path contents} :
      Step deployment state (.edit path contents)
        { state with files := Function.update state.files path contents }

theorem Step.of_step {deployment : Deployment} {state next : State} {action : Action}
    (stepped : step deployment state action = some next) : Step deployment state action next := by
  cases action with
  | begin path expected expectedLen => cases stepped; exact .begin
  | call index action =>
      simp only [step] at stepped
      split at stepped
      next => cases stepped
      next call found =>
        obtain ⟨⟨store', call'⟩, taken, rfl⟩ := Option.map_eq_some_iff.mp stepped
        exact .call found taken
  | edit path contents => cases stepped; exact .edit

/-- An object comes into being, by a call's action. -/
structure Creation where
  index : Nat
  key : String
  object : Object
  deriving DecidableEq

/-- What appears under the acting call's key. -/
def created (deployment : Deployment) (state : State) : Action → List Creation
  | .call index action =>
      match state.calls[index]? with
      | none => []
      | some call =>
          match state.store call.key,
            call.step deployment state.files state.store action with
          | none, some (store', _) =>
              (store' call.key).toList.map fun object => ⟨index, call.key, object⟩
          | _, _ => []
  | _ => []

def creations (deployment : Deployment) (initial : State) (actions : List Action) :
    List Creation :=
  (machine deployment).observe (created deployment) initial actions

theorem created_call {deployment : Deployment} {state : State} {index : Nat}
    {action : UploadAction} {call call' : UploadCall} {store' : ObjectStore}
    (found : state.calls[index]? = some call)
    (stepped : call.step deployment state.files state.store action = some (store', call')) :
    (created deployment state (.call index action) = [] ∧ store' = state.store) ∨
      (call.phase = .closing ∧ state.store call.key = none ∧
        store' = state.store.create call.key (call.object deployment) ∧
        created deployment state (.call index action) =
          [⟨index, call.key, call.object deployment⟩]) := by
  cases slot : state.store call.key with
  | none =>
      rcases UploadCall.step_store stepped with same | ⟨closing, grown⟩
      · refine .inl ⟨?_, same⟩
        simp only [created, found, slot, stepped, same, Option.toList_none, List.map_nil]
      · refine .inr ⟨closing, rfl, grown, ?_⟩
        simp only [created, found, slot, stepped, grown, WriteOnce.create_self slot,
          Option.toList_some, List.map_cons, List.map_nil]
  | some object =>
      refine .inl ⟨by simp only [created, found, slot], ?_⟩
      rcases UploadCall.step_store stepped with same | ⟨-, grown⟩
      · exact same
      · rw [grown, WriteOnce.create_of_taken slot]

/-- The call has ended, other than by finding its source changed. -/
def EndedUnchanged (call : UploadCall) : Prop :=
  ∃ result, call.phase = .returned result ∧
    ∀ error, result = .error error → error.isSourceChanged = false

/-- A created object is the content its creator expected. -/
structure Sound (deployment : Deployment) (state : State) (creation : Creation)
    (call : UploadCall) : Prop where
  found : state.calls[creation.index]? = some call
  key : creation.key = call.key
  hash : deployment.crypto.hexDigest creation.object.bytes = call.expected.text
  length : creation.object.bytes.length = call.expectedLen
  streamed : creation.object.bytes = call.stream.hashed
  stored : state.store creation.key = some creation.object
  ended : EndedUnchanged call

structure Integrity (deployment : Deployment) (initial : ObjectStore) (created : List Creation)
    (state : State) : Prop where
  valid : ∀ (index : Nat) (call : UploadCall),
    state.calls[index]? = some call → call.Valid deployment
  sound : ∀ creation ∈ created, ∃ call, Sound deployment state creation call
  fresh : ∀ creation ∈ created, initial creation.key = none
  once : (created.map Creation.key).Nodup
  kept : WriteOnce.Extends initial state.store
  explained : ∀ key object, state.store key = some object →
    initial key = some object ∨ ∃ creation ∈ created, creation.key = key ∧ creation.object = object
  credited : ∀ (index : Nat) (call : UploadCall) (bytes : Nat), state.calls[index]? = some call →
    call.phase = .returned (.ok (.uploaded bytes)) →
    ∃ creation ∈ created, creation.index = index ∧ creation.key = call.key
  existing : ∀ (index : Nat) (call : UploadCall), state.calls[index]? = some call →
    call.phase = .returned (.ok .alreadyExists) → state.store call.key ≠ none

theorem Integrity.initial (deployment : Deployment) (files : SourceFiles) (store : ObjectStore) :
    Integrity deployment store [] ⟨files, store, []⟩ where
  valid := by simp
  sound := by simp
  fresh := by simp
  once := by simp
  kept := WriteOnce.Extends.refl store
  explained := fun _ _ held => .inl held
  credited := by simp
  existing := by simp

theorem Integrity.begin {deployment : Deployment} {initial : ObjectStore}
    {created : List Creation} {state : State}
    (integrity : Integrity deployment initial created state) (path : PathBuf)
    (expected : ContentHash) (expectedLen : Nat) :
    Integrity deployment initial created
      { state with calls := state.calls ++ [{ path, expected, expectedLen }] } := by
  have cases_at : ∀ {index : Nat} {call : UploadCall},
      (state.calls ++ [({ path, expected, expectedLen } : UploadCall)])[index]? = some call →
      state.calls[index]? = some call ∨ call = { path, expected, expectedLen } := by
    intro index call found
    rw [List.getElem?_append] at found
    split at found
    next => exact .inl found
    next =>
      right
      rw [List.getElem?_singleton] at found
      split at found <;> cases found
      rfl
  refine ⟨?_, ?_, integrity.fresh, integrity.once, integrity.kept, integrity.explained, ?_, ?_⟩
  · intro index call found
    rcases cases_at found with old | rfl
    · exact integrity.valid index call old
    · rfl
  · intro creation member
    obtain ⟨call, sound⟩ := integrity.sound creation member
    obtain ⟨inside, -⟩ := List.getElem?_eq_some_iff.mp sound.found
    exact ⟨call,
      { sound with found := by rw [List.getElem?_append_left inside]; exact sound.found }⟩
  · intro index call bytes found ended
    rcases cases_at found with old | rfl
    · exact integrity.credited index call bytes old ended
    · cases ended
  · intro index call found ended
    rcases cases_at found with old | rfl
    · exact integrity.existing index call old ended
    · cases ended

theorem getElem?_set_cases {calls : List UploadCall} {index other : Nat} {changed call : UploadCall}
    (found : (calls.set index changed)[other]? = some call) :
    (other = index ∧ call = changed) ∨ (other ≠ index ∧ calls[other]? = some call) := by
  by_cases same : index = other
  · subst other
    rw [List.getElem?_set_self'] at found
    cases slot : calls[index]? with
    | none => simp [slot] at found
    | some old =>
        rw [slot] at found
        exact .inl ⟨rfl, (Option.some.inj found).symm⟩
  · rw [List.getElem?_set_ne same] at found
    exact .inr ⟨fun equal => same equal.symm, found⟩

theorem not_step_of_returned {deployment : Deployment} {files : SourceFiles}
    {store store' : ObjectStore} {call call' : UploadCall} {action : UploadAction}
    {result : Except Error UploadOutcome} (ended : call.phase = .returned result) :
    call.step deployment files store action ≠ some (store', call') := by
  intro stepped
  cases UploadCall.Step.of_step stepped with
  | advance phase moved => simp [ended] at moved
  | failed error early => simp [ended] at early
  | read reading => simp [ended] at reading
  | ended reading => simp [ended] at reading
  | write writing => simp [ended] at writing
  | streamFailed error streaming => simp [ended] at streaming
  | closed closing => simp [ended] at closing
  | lost closing => simp [ended] at closing
  | closeFailed closing => simp [ended] at closing
  | aborted aborting => simp [ended] at aborting

theorem ended_of_closing {deployment : Deployment} {files : SourceFiles}
    {store store' : ObjectStore} {call call' : UploadCall} {action : UploadAction}
    (closing : call.phase = .closing)
    (stepped : call.step deployment files store action = some (store', call')) :
    EndedUnchanged call' ∧ call'.stream = call.stream := by
  cases UploadCall.Step.of_step stepped with
  | advance phase moved => simp [closing] at moved
  | failed error early => simp [closing] at early
  | read reading => simp [closing] at reading
  | ended reading => simp [closing] at reading
  | write writing => simp [closing] at writing
  | streamFailed error streaming => simp [closing] at streaming
  | closed => exact ⟨⟨_, rfl, by simp⟩, rfl⟩
  | lost => exact ⟨⟨_, rfl, by simp⟩, rfl⟩
  | closeFailed =>
      refine ⟨⟨_, rfl, ?_⟩, rfl⟩
      rintro error ⟨rfl⟩
      rfl
  | aborted aborting => simp [closing] at aborting

theorem created_of_uploaded {deployment : Deployment} {state : State} {index bytes : Nat}
    {action : UploadAction} {call call' : UploadCall} {store' : ObjectStore}
    (found : state.calls[index]? = some call)
    (stepped : call.step deployment state.files state.store action = some (store', call'))
    (ended : call'.phase = .returned (.ok (.uploaded bytes))) :
    created deployment state (.call index action) =
      [⟨index, call.key, call.object deployment⟩] := by
  cases UploadCall.Step.of_step stepped with
  | advance phase moved =>
      rcases moved with ⟨-, rfl⟩ | ⟨-, rfl⟩ | ⟨-, rfl⟩ <;> cases ended
  | ended =>
      rcases UploadCall.finish_cases deployment call with ⟨actual, length, left⟩ | ⟨-, -, left⟩ <;>
        simp [left] at ended
  | closed closing free =>
      simp only [created, found, free, stepped, WriteOnce.create_self free, Option.toList_some,
        List.map_cons, List.map_nil]
  | _ => cases ended

section Call

variable {deployment : Deployment} {initial : ObjectStore} {earlier : List Creation}
  {state : State} {index : Nat} {action : UploadAction} {call call' : UploadCall}
  {store' : ObjectStore}

/-- Creations made earlier are by other calls, or this one would have ended. -/
theorem Integrity.sound_call (integrity : Integrity deployment initial earlier state)
    (found : state.calls[index]? = some call)
    (stepped : call.step deployment state.files state.store action = some (store', call')) :
    ∀ creation ∈ earlier, ∃ creator,
      Sound deployment { state with store := store', calls := state.calls.set index call' }
        creation creator := by
  intro creation member
  obtain ⟨creator, sound⟩ := integrity.sound creation member
  have other : index ≠ creation.index := by
    rintro rfl
    have same : call = creator := by simpa [found] using sound.found
    obtain ⟨result, ended, -⟩ := sound.ended
    exact not_step_of_returned (same ▸ ended) stepped
  have grows := UploadCall.step_extends stepped
  refine ⟨creator, { sound with found := ?_, stored := grows _ _ sound.stored }⟩
  rw [List.getElem?_set_ne other]
  exact sound.found

theorem sound_of_closing (valid : call.Valid deployment) (found : state.calls[index]? = some call)
    (stepped : call.step deployment state.files state.store action = some (store', call'))
    (closing : call.phase = .closing) (free : state.store call.key = none)
    (grown : store' = state.store.create call.key (call.object deployment)) :
    Sound deployment { state with store := store', calls := state.calls.set index call' }
      ⟨index, call.key, call.object deployment⟩ call' := by
  have inside := (List.getElem?_eq_some_iff.mp found).1
  obtain ⟨-, expected, expectedLen⟩ := UploadCall.step_arguments stepped
  have key : call'.key = call.key := congrArg ContentHash.toObjectKey expected
  simp only [UploadCall.Valid, closing] at valid
  obtain ⟨ended, stream⟩ := ended_of_closing closing stepped
  refine ⟨List.getElem?_set_self inside, key.symm, ?_, ?_, ?_, ?_, ended⟩
  · rw [valid.object_bytes, valid.hash, expected]
  · rw [valid.object_bytes, ← valid.synced.length, valid.length, expectedLen]
  · rw [valid.object_bytes, stream]
  · simp only [grown]
    exact WriteOnce.create_self free _

theorem Integrity.once_concat (integrity : Integrity deployment initial earlier state)
    {creation : Creation} (free : state.store creation.key = none) :
    ((earlier ++ [creation]).map Creation.key).Nodup := by
  rw [List.map_append, List.nodup_append]
  refine ⟨integrity.once, by simp, ?_⟩
  rintro name before last fresh rfl
  obtain ⟨other, member, rfl⟩ := List.mem_map.mp before
  obtain ⟨creator, sound⟩ := integrity.sound other member
  simp only [List.map_cons, List.map_nil, List.mem_singleton] at fresh
  rw [← fresh, sound.stored] at free
  cases free

theorem Integrity.explained_concat (integrity : Integrity deployment initial earlier state)
    (creation : Creation) {key : String} {object : Object}
    (held : state.store.create creation.key creation.object key = some object) :
    initial key = some object ∨
      ∃ other ∈ earlier ++ [creation], other.key = key ∧ other.object = object := by
  rcases WriteOnce.create_eq_some held with old | ⟨-, same, rfl⟩
  · rcases integrity.explained key object old with start | ⟨other, member, facts⟩
    · exact .inl start
    · exact .inr ⟨other, List.mem_append_left _ member, facts⟩
  · exact .inr ⟨creation, by simp, same.symm, rfl⟩

end Call

theorem Integrity.call {deployment : Deployment} {initial : ObjectStore}
    {earlier : List Creation} {state : State} {index : Nat} {action : UploadAction}
    {call call' : UploadCall} {store' : ObjectStore}
    (integrity : Integrity deployment initial earlier state)
    (found : state.calls[index]? = some call)
    (stepped : call.step deployment state.files state.store action = some (store', call')) :
    Integrity deployment initial (earlier ++ created deployment state (.call index action))
      { state with store := store', calls := state.calls.set index call' } := by
  have valid := integrity.valid index call found
  have grows := UploadCall.step_extends stepped
  obtain ⟨-, expected, -⟩ := UploadCall.step_arguments stepped
  have key : call'.key = call.key := congrArg ContentHash.toObjectKey expected
  refine ⟨?_, ?_, ?_, ?_, integrity.kept.trans grows, ?_, ?_, ?_⟩
  · intro other candidate at_other
    rcases getElem?_set_cases at_other with ⟨rfl, rfl⟩ | ⟨-, old⟩
    · exact valid.step stepped
    · exact integrity.valid other candidate old
  · intro creation member
    rcases List.mem_append.mp member with before | now
    · exact integrity.sound_call found stepped creation before
    · rcases created_call found stepped with ⟨none, -⟩ | ⟨closing, free, grown, one⟩
      · simp [none] at now
      · rw [one, List.mem_singleton] at now
        subst creation
        exact ⟨call', sound_of_closing valid found stepped closing free grown⟩
  · intro creation member
    rcases List.mem_append.mp member with before | now
    · exact integrity.fresh creation before
    · rcases created_call found stepped with ⟨none, -⟩ | ⟨-, free, -, one⟩
      · simp [none] at now
      · rw [one, List.mem_singleton] at now
        subst creation
        by_contra taken
        obtain ⟨object, held⟩ := Option.ne_none_iff_exists'.mp taken
        simp [integrity.kept _ _ held] at free
  · rcases created_call found stepped with ⟨none, -⟩ | ⟨-, free, -, one⟩
    · rw [none, List.append_nil]
      exact integrity.once
    · rw [one]
      exact integrity.once_concat free
  · intro name object held
    rcases created_call found stepped with ⟨none, same⟩ | ⟨-, -, grown, one⟩
    · rw [none, List.append_nil]
      rw [same] at held
      exact integrity.explained name object held
    · rw [one]
      rw [grown] at held
      exact integrity.explained_concat ⟨index, call.key, call.object deployment⟩ held
  · intro other candidate bytes at_other ended
    rcases getElem?_set_cases at_other with ⟨rfl, rfl⟩ | ⟨-, old⟩
    · refine ⟨⟨other, call.key, call.object deployment⟩, ?_, rfl, key.symm⟩
      rw [created_of_uploaded found stepped ended]
      simp
    · obtain ⟨creation, member, facts⟩ := integrity.credited other candidate bytes old ended
      exact ⟨creation, List.mem_append_left _ member, facts⟩
  · intro other candidate at_other ended
    rcases getElem?_set_cases at_other with ⟨rfl, rfl⟩ | ⟨-, old⟩
    · rw [key]
      exact (UploadCall.step_stored stepped ended).2
    · obtain ⟨object, held⟩ := Option.ne_none_iff_exists'.mp
        (integrity.existing other candidate old ended)
      simp [grows _ _ held]

theorem integrity_of_exec {deployment : Deployment} {files : SourceFiles} {store : ObjectStore}
    {actions : List Action} {final : State}
    (run : (machine deployment).exec ⟨files, store, []⟩ actions = some final) :
    Integrity deployment store (creations deployment ⟨files, store, []⟩ actions) final := by
  refine (machine deployment).exec_induction (motive := fun actions state =>
    Integrity deployment store (creations deployment ⟨files, store, []⟩ actions) state)
    (Integrity.initial deployment files store) ?_ run
  intro actions middle action next before integrity stepped
  unfold creations at integrity ⊢
  rw [(machine deployment).observe_snoc _ before stepped]
  cases Step.of_step stepped with
  | begin =>
      simp only [created, List.append_nil]
      exact integrity.begin _ _ _
  | call found taken => exact integrity.call found taken
  | edit =>
      simp only [created, List.append_nil]
      refine { integrity with sound := fun creation member => ?_ }
      obtain ⟨call, sound⟩ := integrity.sound creation member
      exact ⟨call, { sound with }⟩

theorem Integrity.upload_unique {deployment : Deployment} {initial : ObjectStore}
    {created : List Creation} {state : State}
    (integrity : Integrity deployment initial created state) {first second : Nat}
    {firstCall secondCall : UploadCall} {firstBytes secondBytes : Nat}
    (firstFound : state.calls[first]? = some firstCall)
    (secondFound : state.calls[second]? = some secondCall)
    (firstEnded : firstCall.phase = .returned (.ok (.uploaded firstBytes)))
    (secondEnded : secondCall.phase = .returned (.ok (.uploaded secondBytes)))
    (same : firstCall.key = secondCall.key) : first = second := by
  obtain ⟨creation, member, index, key⟩ :=
    integrity.credited first firstCall firstBytes firstFound firstEnded
  obtain ⟨other, otherMember, otherIndex, otherKey⟩ :=
    integrity.credited second secondCall secondBytes secondFound secondEnded
  have equal : creation = other :=
    List.inj_on_of_nodup_map integrity.once member otherMember (by rw [key, otherKey, same])
  rw [← index, ← otherIndex, equal]

/-- A lost race leaves the bytes the loser streamed. -/
theorem Integrity.existing_bytes {deployment : Deployment} {initial : ObjectStore}
    {created : List Creation} {state : State}
    (integrity : Integrity deployment initial created state)
    (collisionFree : Set.InjOn deployment.crypto.sha256
      {bytes | ∃ call ∈ state.calls, call.stream.hashed = bytes})
    {index : Nat} {call : UploadCall} (found : state.calls[index]? = some call)
    (ended : call.phase = .returned (.ok .alreadyExists)) (absent : initial call.key = none) :
    ∃ object, state.store call.key = some object ∧ object.bytes = call.stream.written := by
  obtain ⟨object, held⟩ := Option.ne_none_iff_exists'.mp (integrity.existing index call found ended)
  refine ⟨object, held, ?_⟩
  have matching : call.Matching deployment := by
    have valid := integrity.valid index call found
    simpa only [UploadCall.Valid, ended] using valid
  rcases integrity.explained _ object held with start | ⟨creation, member, key, rfl⟩
  · simp [absent] at start
  · obtain ⟨creator, sound⟩ := integrity.sound creation member
    have expected : creator.expected = call.expected :=
      ContentHash.toObjectKey_injective (sound.key.symm.trans key)
    have digests : deployment.crypto.hexDigest creator.stream.hashed =
        deployment.crypto.hexDigest call.stream.hashed := by
      rw [← sound.streamed, sound.hash, expected, matching.hash]
    rw [sound.streamed, matching.synced.written]
    exact Crypto.hexDigest_injOn collisionFree ⟨creator, List.mem_of_getElem? sound.found, rfl⟩
      ⟨call, List.mem_of_getElem? found, rfl⟩ digests

/-- However uploads interleave with each other and with edits of their sources:
what is created hashes to its key and has the expected length, what is stored
stays, one call per key is the uploader, and the others left nothing behind. -/
theorem uploads_keep_the_store_content_addressed
    {deployment : Deployment} {files : SourceFiles} {store : ObjectStore}
    {actions : List Action} {final : State}
    (run : (machine deployment).exec ⟨files, store, []⟩ actions = some final)
    (collisionFree : Set.InjOn deployment.crypto.sha256
      {bytes | ∃ call ∈ final.calls, call.stream.hashed = bytes}) :
    (∀ creation ∈ creations deployment ⟨files, store, []⟩ actions,
        ∃ call, final.calls[creation.index]? = some call ∧
          creation.key = call.expected.toObjectKey ∧
          deployment.crypto.hexDigest creation.object.bytes = call.expected.text ∧
          creation.object.bytes.length = call.expectedLen ∧
          final.store creation.key = some creation.object) ∧
      (∀ key object, final.store key = some object → store key = some object ∨
        ∃ creation ∈ creations deployment ⟨files, store, []⟩ actions,
          creation.key = key ∧ creation.object = object) ∧
      (∀ before after middle, actions = before ++ after →
        (machine deployment).exec ⟨files, store, []⟩ before = some middle →
        WriteOnce.Extends middle.store final.store) ∧
      (∀ (first second : Nat) (firstCall secondCall : UploadCall) (firstBytes secondBytes : Nat),
        final.calls[first]? = some firstCall → final.calls[second]? = some secondCall →
        firstCall.phase = .returned (.ok (.uploaded firstBytes)) →
        secondCall.phase = .returned (.ok (.uploaded secondBytes)) →
        firstCall.key = secondCall.key → first = second) ∧
      (∀ (index : Nat) (call : UploadCall), final.calls[index]? = some call →
        call.phase = .returned (.ok .alreadyExists) → store call.key = none →
        ∃ object, final.store call.key = some object ∧ object.bytes = call.stream.written) ∧
      (∀ (index : Nat) (call : UploadCall) (error : Error), final.calls[index]? = some call →
        call.phase = .returned (.error error) → error.isSourceChanged = true →
        ∀ creation ∈ creations deployment ⟨files, store, []⟩ actions, creation.index ≠ index) := by
  have integrity := integrity_of_exec run
  refine ⟨?_, integrity.explained, ?_, ?_, ?_, ?_⟩
  · intro creation member
    obtain ⟨call, sound⟩ := integrity.sound creation member
    exact ⟨call, sound.found, sound.key, sound.hash, sound.length, sound.stored⟩
  · rintro before after middle rfl reached
    obtain ⟨again, there, remaining⟩ := (machine deployment).exec_append_eq_some_iff.mp run
    rw [reached, Option.some.injEq] at there
    subst again
    refine (machine deployment).exec_relation
      (fun state later => WriteOnce.Extends state.store later.store)
      (fun state => WriteOnce.Extends.refl state.store)
      (fun _ _ _ early late => early.trans late) ?_ remaining
    intro state action next stepped
    cases Step.of_step stepped with
    | call found taken => exact UploadCall.step_extends taken
    | _ => exact WriteOnce.Extends.refl state.store
  · intro first second firstCall secondCall firstBytes secondBytes firstFound secondFound
      firstEnded secondEnded same
    exact integrity.upload_unique firstFound secondFound firstEnded secondEnded same
  · exact fun index call found ended absent =>
      integrity.existing_bytes collisionFree found ended absent
  · rintro index call error found ended changed creation member rfl
    obtain ⟨creator, sound⟩ := integrity.sound creation member
    obtain ⟨result, returned, other⟩ := sound.ended
    have same : creator = call := by simpa [found] using sound.found.symm
    subst creator
    rw [ended] at returned
    cases returned
    simp [other error rfl] at changed

def sampleContents (text : String) (short : (utf8Bytes text).length < 2 ^ 63) : Contents :=
  ⟨utf8Bytes text, short⟩

def raceSchedule : List Action :=
  let expected : ContentHash := ⟨sampleCrypto.hexDigest (utf8Bytes "hello world")⟩
  [.begin ⟨[[97]]⟩ expected 11, .begin ⟨[[98]]⟩ expected 11, .begin ⟨[[99]]⟩ expected 11] ++
    [0, 1, 2].flatMap (fun index =>
      [.call index .stat, .call index .open, .call index .openWriter, .call index (.read 6),
        .call index .write]) ++
    [.edit ⟨[[99]]⟩ (some (sampleContents "hello there" helloThere_length_lt))] ++
    [2, 1, 0].flatMap (fun index =>
      [.call index (.read readBufferBytes), .call index .write, .call index (.read 1)]) ++
    [.call 1 .close, .call 0 .close, .call 2 .abort]

def raceFiles : SourceFiles := fun path =>
  if path.components ∈ [[[97]], [[98]], [[99]]] then
    some (sampleContents "hello world" helloWorld_length_lt)
  else none

theorem uploads_keep_the_store_content_addressed_race :
    ∃ final call, (machine ⟨sampleCrypto, "lake", true⟩).exec ⟨raceFiles, fun _ => none, []⟩
        raceSchedule = some final ∧
      final.calls[0]? = some call ∧ call.phase = .returned (.ok .alreadyExists) ∧
      ∃ object, final.store call.key = some object ∧ object.bytes = utf8Bytes "hello world" := by
  obtain ⟨final, call, run, found, ended, written, streams⟩ : ∃ final call,
      (machine ⟨sampleCrypto, "lake", true⟩).exec ⟨raceFiles, fun _ => none, []⟩ raceSchedule =
        some final ∧
      final.calls[0]? = some call ∧ call.phase = .returned (.ok .alreadyExists) ∧
      call.stream.written = utf8Bytes "hello world" ∧
      final.calls.map (fun call => call.stream.hashed) =
        [utf8Bytes "hello world", utf8Bytes "hello world", utf8Bytes "hello there"] :=
    ⟨_, _, rfl, rfl, rfl, rfl, rfl⟩
  have collisionFree : Set.InjOn sampleCrypto.sha256
      {bytes | ∃ call ∈ final.calls, call.stream.hashed = bytes} := by
    have distinct : ∀ first ∈ final.calls.map (fun call => call.stream.hashed),
        ∀ second ∈ final.calls.map (fun call => call.stream.hashed),
        sampleCrypto.sha256 first = sampleCrypto.sha256 second → first = second := by
      rw [streams]
      decide
    rintro first ⟨one, member, rfl⟩ second ⟨other, otherMember, rfl⟩
    exact distinct _ (List.mem_map_of_mem member) _ (List.mem_map_of_mem otherMember)
  obtain ⟨-, -, -, -, existing, -⟩ := uploads_keep_the_store_content_addressed run collisionFree
  obtain ⟨object, held, bytes⟩ := existing 0 call found ended rfl
  exact ⟨final, call, run, found, ended, object, held, bytes.trans written⟩

end Uploads

end AntiEntropator.Ingest

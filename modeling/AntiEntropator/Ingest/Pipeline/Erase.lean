import AntiEntropator.Ingest.Pipeline.Delivery

/-!
# The pipeline without payloads

What the pipeline does depends on its tasks and commits only through their
results.  Erasing the payloads maps every schedule of the pipeline inside a run
to a schedule of the bare pipeline, whose theorems then apply to the run.
-/

namespace AntiEntropator.Ingest.Pipeline

variable {Future Call : Type}

def TaskState.erase : TaskState Future → TaskState Unit
  | .running _ => .running ()
  | .finished joined => .finished joined

def Task.erase (task : Task Future) : Task Unit := ⟨task.path, task.state.erase⟩

def Writer.erase : Writer Call → Writer Unit
  | .receiving batch => .receiving batch
  | .committing rows _ tail => .committing rows () tail
  | .returned failure => .returned failure

def State.erase (state : State Future Call) : State Unit Unit where
  pending := state.pending
  set := state.set.map Task.erase
  stop := state.stop
  producer := state.producer
  counts := state.counts
  errors := state.errors
  channel := state.channel
  writer := state.writer.erase
  commit := state.commit

def Parts.erase (parts : Parts Future Call) : Parts Unit Unit where
  worker _ := ()
  committer := parts.committer.map fun _ _ => ()

@[simp]
theorem erase_start (parts : Parts Future Call) (files : List PathBuf) :
    (start parts files).erase = start parts.erase files := by
  cases committer : parts.committer <;> simp [State.erase, start, Parts.erase, committer, Writer.erase]

@[simp]
theorem report?_erase (state : State Future Call) : state.erase.report? = state.report? := by
  cases producer : state.producer <;> cases writer : state.writer <;>
    simp [State.report?, State.erase, Writer.erase, producer, writer]

theorem receiverOpen_erase (state : State Future Call) :
    state.erase.receiverOpen = state.receiverOpen := by
  cases writer : state.writer <;> simp [State.receiverOpen, State.erase, Writer.erase, writer]

theorem mayFill_erase {cfg : PipelineConfig} {state : State Future Call} :
    state.erase.mayFill cfg ↔ state.mayFill cfg := by
  simp [State.mayFill, State.erase]

theorem erase_writer (state : State Future Call) : state.erase.writer = state.writer.erase := rfl

theorem erase_set (state : State Future Call) (index : Nat) :
    state.erase.set[index]? = state.set[index]?.map Task.erase := by
  simp [State.erase]

theorem step_erase {cfg : PipelineConfig} {parts : Parts Future Call}
    {state next : State Future Call} {action : Action}
    (stepped : step cfg parts state action = some next) :
    step cfg parts.erase state.erase action = some next.erase := by
  refine Step.step_eq ?_
  have committed : ∀ {commit}, parts.committer = some commit →
      parts.erase.committer = some fun _ => () := by
    intro commit committer
    simp [Parts.erase, committer]
  cases Step.of_step stepped with
  | @spawn path rest filling pending room =>
      have taken : Step cfg parts.erase state.erase .spawn _ :=
        .spawn filling pending (mayFill_erase.mpr room)
      simpa [State.erase, Task.erase, TaskState.erase, Parts.erase] using taken
  | await filling done =>
      exact .await filling fun more => done ⟨mayFill_erase.mp more.1, more.2⟩
  | @finish index joined path future found =>
      have there : state.erase.set[index]? = some ⟨path, .running ()⟩ := by
        rw [erase_set, found]
        rfl
      have taken : Step cfg parts.erase state.erase (.finish index joined) _ := .finish there
      simpa [State.erase, Task.erase, TaskState.erase] using taken
  | @joinFailed index path joined text joining found failed =>
      have there : state.erase.set[index]? = some ⟨path, .finished joined⟩ := by
        rw [erase_set, found]
        rfl
      have taken : Step cfg parts.erase state.erase (.join index) _ :=
        .joinFailed joining there failed
      simpa [State.erase, List.eraseIdx_map] using taken
  | @joinQuiet index path outcome joining found quiet =>
      have there : state.erase.set[index]? = some ⟨path, .finished (.result (.ok outcome))⟩ := by
        rw [erase_set, found]
        rfl
      have taken : Step cfg parts.erase state.erase (.join index) _ :=
        .joinQuiet joining there (quiet.imp_right fun absent => by simp [Parts.erase, absent])
      simpa [State.erase, List.eraseIdx_map] using taken
  | @joinRow index path outcome row commit joining found rowCase committer =>
      have there : state.erase.set[index]? = some ⟨path, .finished (.result (.ok outcome))⟩ := by
        rw [erase_set, found]
        rfl
      have taken : Step cfg parts.erase state.erase (.join index) _ :=
        .joinRow joining there rowCase (committed committer)
      simpa [State.erase, List.eraseIdx_map] using taken
  | drain joining empty =>
      have taken : Step cfg parts.erase state.erase .drain _ :=
        .drain joining (by simp [State.erase, empty])
      simpa [State.erase] using taken
  | sendQueued sending receiverAlive room =>
      exact .sendQueued sending ((receiverOpen_erase state).trans receiverAlive) room
  | sendDropped sending gone =>
      exact .sendDropped sending ((receiverOpen_erase state).trans gone)
  | recvMore receiving channel room =>
      exact .recvMore (by rw [erase_writer, receiving]; rfl) channel room
  | @recvFull batch row rest commit receiving channel full committer =>
      have there : state.erase.writer = .receiving batch := by rw [erase_writer, receiving]; rfl
      have taken : Step cfg parts.erase state.erase .recv _ :=
        .recvFull there channel full (committed committer)
      exact taken
  | recvClosedEmpty receiving channel returned =>
      exact .recvClosedEmpty (by rw [erase_writer, receiving]; rfl) channel returned
  | @recvClosedTail batch commit receiving channel returned nonempty committer =>
      have there : state.erase.writer = .receiving batch := by rw [erase_writer, receiving]; rfl
      have taken : Step cfg parts.erase state.erase .recvClosed _ :=
        .recvClosedTail there channel returned nonempty (committed committer)
      exact taken
  | @commitOk rows call tail committing =>
      have there : state.erase.writer = .committing rows () tail := by
        rw [erase_writer, committing]
        rfl
      have taken : Step cfg parts.erase state.erase .commitOk _ := .commitOk there
      cases tail <;> exact taken
  | @commitErr rows call tail error committing =>
      have there : state.erase.writer = .committing rows () tail := by
        rw [erase_writer, committing]
        rfl
      exact .commitErr there

end AntiEntropator.Ingest.Pipeline

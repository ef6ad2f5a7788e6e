import AntiEntropator.Ingest.Pipeline

/-!
# What a pipeline step can do

`Step` lists the effects of every enabled action, one constructor for each way
it can go; the step function does exactly these (`Step.of_step`, `Step.step_eq`).
Invariants are proved by cases on `Step`, never by unfolding `step`.
-/

namespace AntiEntropator.Ingest.Pipeline

variable {Future Call : Type}

def outcomeRow? : IngestOutcome → Option FileInfo
  | .observed info _ => some info
  | .unchanged _ => none

def outcomeBlob : IngestOutcome → BlobState
  | .observed _ blob => blob
  | .unchanged blob => blob

@[simp]
theorem tally_snd (counts : IngestCounts) (outcome : IngestOutcome) :
    (tally counts outcome).2 = outcomeRow? outcome := by
  rcases outcome with ⟨info, blob⟩ | blob <;> cases blob <;> rfl

theorem tally_paths (counts : IngestCounts) (outcome : IngestOutcome) :
    (tally counts outcome).1.observed =
        counts.observed + (outcomeRow? outcome).toList.length ∧
      (tally counts outcome).1.observed + (tally counts outcome).1.unchanged =
        counts.observed + counts.unchanged + 1 := by
  rcases outcome with ⟨info, blob⟩ | blob <;> cases blob <;>
    simp [tally, outcomeRow?] <;> omega

theorem tally_blobs (counts : IngestCounts) (outcome : IngestOutcome) :
    (tally counts outcome).1.uploaded =
        counts.uploaded + (if outcomeBlob outcome = .uploaded then 1 else 0) ∧
      (tally counts outcome).1.uploaded + (tally counts outcome).1.alreadyExists =
        counts.uploaded + counts.alreadyExists + 1 := by
  rcases outcome with ⟨info, blob⟩ | blob <;> cases blob <;>
    simp [tally, outcomeBlob] <;> omega

@[simp]
theorem tally_skipped (counts : IngestCounts) (outcome : IngestOutcome) :
    (tally counts outcome).1.skipped = counts.skipped := by
  rcases outcome with ⟨info, blob⟩ | blob <;> cases blob <;> rfl

/-- The line the producer records for a task that did not end in an outcome. -/
def failureText? (path : PathBuf) : Joined → Option String
  | .panicked text => some ("worker task failed: " ++ text)
  | .result (.error error) => some (path.display ++ ": " ++ error.display)
  | .result (.ok _) => none

/-- The effects of the pipeline's actions. -/
inductive Step (cfg : PipelineConfig) (parts : Parts Future Call) (state : State Future Call) :
    Action → State Future Call → Prop where
  | spawn {path rest} :
      state.producer = .filling → state.pending = path :: rest → state.mayFill cfg →
      Step cfg parts state .spawn { state with
        pending := rest
        set := state.set ++ [⟨path, .running (parts.worker path)⟩] }
  | await :
      state.producer = .filling → ¬ (state.mayFill cfg ∧ state.pending ≠ []) →
      Step cfg parts state .await { state with producer := .joining }
  | finish {index joined path future} :
      state.set[index]? = some ⟨path, .running future⟩ →
      Step cfg parts state (.finish index joined)
        { state with set := state.set.set index ⟨path, .finished joined⟩ }
  | joinFailed {index path joined text} :
      state.producer = .joining → state.set[index]? = some ⟨path, .finished joined⟩ →
      failureText? path joined = some text →
      Step cfg parts state (.join index) { state with
        set := state.set.eraseIdx index
        producer := .filling
        errors := state.errors ++ [text] }
  | joinQuiet {index path outcome} :
      state.producer = .joining →
      state.set[index]? = some ⟨path, .finished (.result (.ok outcome))⟩ →
      (outcomeRow? outcome = none ∨ parts.committer = none) →
      Step cfg parts state (.join index) { state with
        set := state.set.eraseIdx index
        producer := .filling
        counts := (tally state.counts outcome).1 }
  | joinRow {index path outcome row commit} :
      state.producer = .joining →
      state.set[index]? = some ⟨path, .finished (.result (.ok outcome))⟩ →
      outcomeRow? outcome = some row → parts.committer = some commit →
      Step cfg parts state (.join index) { state with
        set := state.set.eraseIdx index
        producer := .sending row
        counts := (tally state.counts outcome).1 }
  | drain :
      state.producer = .joining → state.set = [] →
      Step cfg parts state .drain { state with
        pending := []
        counts := { state.counts with skipped := state.pending.length }
        producer := .returned }
  | sendQueued {row} :
      state.producer = .sending row → state.receiverOpen = true →
      state.channel.length < cfg.batchSize →
      Step cfg parts state .send
        { state with channel := state.channel ++ [row], producer := .filling }
  | sendDropped {row} :
      state.producer = .sending row → state.receiverOpen = false →
      Step cfg parts state .send { state with producer := .filling }
  | recvMore {batch row rest} :
      state.writer = .receiving batch → state.channel = row :: rest →
      batch.length + 1 < cfg.batchSize →
      Step cfg parts state .recv
        { state with channel := rest, writer := .receiving (batch ++ [row]) }
  | recvFull {batch row rest commit} :
      state.writer = .receiving batch → state.channel = row :: rest →
      cfg.batchSize ≤ batch.length + 1 → parts.committer = some commit →
      Step cfg parts state .recv { state with
        channel := rest
        writer := .committing (batch ++ [row]) (commit (batch ++ [row])) false }
  | recvClosedEmpty :
      state.writer = .receiving [] → state.channel = [] → state.producer = .returned →
      Step cfg parts state .recvClosed { state with writer := .returned none }
  | recvClosedTail {batch commit} :
      state.writer = .receiving batch → state.channel = [] → state.producer = .returned →
      batch ≠ [] → parts.committer = some commit →
      Step cfg parts state .recvClosed
        { state with writer := .committing batch (commit batch) true }
  | commitOk {rows call tail} :
      state.writer = .committing rows call tail →
      Step cfg parts state .commitOk { state with
        commit := { state.commit with
          committed := state.commit.committed + rows.length
          batchesCommitted := state.commit.batchesCommitted + 1 }
        writer := if tail then .returned none else .receiving [] }
  | commitErr {rows call tail error} :
      state.writer = .committing rows call tail →
      Step cfg parts state (.commitErr error) { state with
        commit := { state.commit with batchesFailed := state.commit.batchesFailed + 1 }
        stop := true
        channel := []
        writer := .returned (some (error.context
          ("batch " ++ toString (batchIndex state.commit) ++ " (" ++
            toString rows.length ++ " rows)"))) }

theorem Step.of_step {cfg : PipelineConfig} {parts : Parts Future Call}
    {state next : State Future Call} {action : Action}
    (stepped : step cfg parts state action = some next) : Step cfg parts state action next := by
  cases action with
  | spawn =>
      simp only [step] at stepped
      split at stepped
      next path rest filling pending =>
        split at stepped
        next room => cases stepped; exact .spawn filling pending room
        next => cases stepped
      next => cases stepped
  | await =>
      simp only [step] at stepped
      split at stepped
      next filling =>
        split at stepped
        next => cases stepped
        next done => cases stepped; exact .await filling done
      next => cases stepped
  | finish index joined =>
      simp only [step] at stepped
      split at stepped
      next path future found => cases stepped; exact .finish found
      next => cases stepped
  | join index =>
      simp only [step] at stepped
      split at stepped
      next path joined joining found =>
        cases stepped
        rcases joined with ⟨error | outcome⟩ | text
        · exact .joinFailed joining found rfl
        · simp only [State.absorb, tally_snd]
          split
          next row commit row? committer => exact .joinRow joining found row? committer
          next counts row? committer none =>
            refine .joinQuiet joining found ?_
            cases rowCase : outcomeRow? outcome with
            | none => exact .inl rfl
            | some row =>
                right
                cases committerCase : parts.committer with
                | none => rfl
                | some commit => exact (none row commit rowCase committerCase).elim
        · exact .joinFailed joining found rfl
      next => cases stepped
  | drain =>
      simp only [step] at stepped
      split at stepped
      next joining empty => cases stepped; exact .drain joining empty
      next => cases stepped
  | send =>
      simp only [step] at stepped
      split at stepped
      next row sending =>
        split at stepped
        next receiverAlive =>
          split at stepped
          next room => cases stepped; exact .sendQueued sending receiverAlive room
          next => cases stepped
        next gone => cases stepped; exact .sendDropped sending (by simpa using gone)
      next => cases stepped
  | recv =>
      simp only [step] at stepped
      split at stepped
      next batch row rest receiving channel =>
        simp only [State.accept, State.flush, List.length_append, List.length_cons,
          List.length_nil] at stepped
        split at stepped
        next full =>
          obtain ⟨commit, committer, rfl⟩ := Option.map_eq_some_iff.mp stepped
          exact .recvFull receiving channel full committer
        next room => cases stepped; exact .recvMore receiving channel (by omega)
      next => cases stepped
  | recvClosed =>
      simp only [step] at stepped
      split at stepped
      next receiving channel returned =>
        cases stepped
        exact .recvClosedEmpty receiving channel returned
      next batch nonempty receiving channel returned =>
        obtain ⟨commit, committer, rfl⟩ := Option.map_eq_some_iff.mp stepped
        exact .recvClosedTail receiving channel returned nonempty committer
      next => cases stepped
  | commitOk =>
      simp only [step] at stepped
      split at stepped
      next rows call tail committing => cases stepped; exact .commitOk committing
      next => cases stepped
  | commitErr error =>
      simp only [step] at stepped
      split at stepped
      next rows call tail committing => cases stepped; exact .commitErr committing
      next => cases stepped

theorem Step.step_eq {cfg : PipelineConfig} {parts : Parts Future Call}
    {state next : State Future Call} {action : Action}
    (stepped : Step cfg parts state action next) : step cfg parts state action = some next := by
  cases stepped with
  | spawn filling pending room => simp [step, filling, pending, room]
  | await filling done => simp [step, filling, done]
  | finish found => simp [step, found]
  | @joinFailed index path joined text joining found failed =>
      rcases joined with ⟨error | outcome⟩ | text
      · cases failed; simp [step, joining, found, State.absorb]
      · cases failed
      · cases failed; simp [step, joining, found, State.absorb]
  | @joinQuiet index path outcome joining found quiet =>
      rcases quiet with noRow | noCommitter
      · simp [step, joining, found, State.absorb, noRow]
      · simp [step, joining, found, State.absorb, noCommitter]
  | joinRow joining found row committer =>
      simp [step, joining, found, State.absorb, row, committer]
  | drain joining empty => simp [step, joining, empty]
  | sendQueued sending receiverAlive room => simp [step, sending, receiverAlive, room]
  | sendDropped sending gone => simp [step, sending, gone]
  | recvMore receiving channel room =>
      simp [step, receiving, channel, State.accept]
      omega
  | recvFull receiving channel full committer =>
      simp [step, receiving, channel, State.accept, State.flush, full, committer]
  | recvClosedEmpty receiving channel returned => simp [step, receiving, channel, returned]
  | @recvClosedTail batch commit receiving channel returned nonempty committer =>
      cases batch with
      | nil => contradiction
      | cons row rest => simp [step, receiving, channel, returned, State.flush, committer]
  | commitOk committing => simp [step, committing]
  | commitErr committing => simp [step, committing]

end AntiEntropator.Ingest.Pipeline

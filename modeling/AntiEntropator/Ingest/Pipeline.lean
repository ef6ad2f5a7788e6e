import AntiEntropator.GuardedMachine.Basic
import AntiEntropator.Ingest.Output

/-!
# Bounded ingest pipeline

`run_pipeline` as a machine.  Its parts are the producer, which fills a set of
worker tasks and joins them, a bounded channel of observation rows, and the
writer, which commits the rows in batches.  A schedule is any order of the
parts' steps.

`Future` is the state of a running worker and `Call` that of a running commit.
The pipeline only creates them; what they do between creation and completion
is the business of whoever drives the machine.
-/

namespace AntiEntropator.Ingest

inductive BlobState where
  | uploaded
  | existing
  deriving DecidableEq

inductive IngestOutcome where
  | observed : FileInfo → BlobState → IngestOutcome
  | unchanged : BlobState → IngestOutcome
  deriving DecidableEq

namespace Pipeline

structure PipelineConfig where
  concurrency : Nat
  batchSize : Nat
  concurrency_pos : 0 < concurrency
  batchSize_pos : 0 < batchSize

/-- What joining a task yields: the worker's result, or the task panicked. -/
inductive Joined where
  | result : Except Error IngestOutcome → Joined
  | panicked : String → Joined
  deriving DecidableEq

inductive TaskState (Future : Type) where
  | running : Future → TaskState Future
  | finished : Joined → TaskState Future

structure Task (Future : Type) where
  path : PathBuf
  state : TaskState Future

inductive Producer where
  /-- In the inner loop that starts tasks. -/
  | filling
  /-- At `set.join_next()`. -/
  | joining
  /-- At `tx.send(row)`. -/
  | sending : FileInfo → Producer
  /-- Loop left, `tx` dropped. -/
  | returned
  deriving DecidableEq

/-- Where the writer is; `returned` also stands for a run without committer. -/
inductive Writer (Call : Type) where
  /-- At `rx.recv()`, with the rows of the current batch. -/
  | receiving : List FileInfo → Writer Call
  /-- At `committer.commit(rows)`; `tail` when the channel is already closed. -/
  | committing (rows : List FileInfo) (call : Call) (tail : Bool) : Writer Call
  | returned : Option Error → Writer Call

structure State (Future Call : Type) where
  pending : List PathBuf
  set : List (Task Future)
  stop : Bool
  producer : Producer
  counts : IngestCounts
  errors : List String
  channel : List FileInfo
  writer : Writer Call
  commit : CommitCounts

/-- The pipeline's collaborators: the worker, and the committer of writing
runs. -/
structure Parts (Future Call : Type) where
  worker : PathBuf → Future
  committer : Option (List FileInfo → Call)

inductive Action where
  /-- One turn of the inner loop: start a task for the next file. -/
  | spawn
  /-- The inner loop ends; wait for a task. -/
  | await
  /-- The task at this position of the set ends. -/
  | finish (index : Nat) (joined : Joined)
  /-- `join_next` returns the task at this position. -/
  | join (index : Nat)
  /-- `join_next` finds the set empty; the producer returns. -/
  | drain
  /-- `tx.send` completes. -/
  | send
  /-- `rx.recv` yields a row. -/
  | recv
  /-- `rx.recv` reports the closed channel. -/
  | recvClosed
  /-- The commit in progress is acknowledged. -/
  | commitOk
  /-- The commit in progress fails. -/
  | commitErr (error : Error)
  deriving DecidableEq

variable {Future Call : Type}

/-- Fold one outcome into the counts; return the row to commit, if any. -/
def tally (counts : IngestCounts) (outcome : IngestOutcome) : IngestCounts × Option FileInfo :=
  let (counts, row, blob) : IngestCounts × Option FileInfo × BlobState := match outcome with
    | .observed info blob =>
        let counts := { counts with observed := counts.observed + 1 }
        -- `+=` on `u64`, which wraps in a release build.
        let counts :=
          if blob = .uploaded then
            { counts with bytes := counts.bytes + UInt64.ofNat info.sizeBytes }
          else counts
        (counts, some info, blob)
    | .unchanged blob => ({ counts with unchanged := counts.unchanged + 1 }, none, blob)
  match blob with
  | .uploaded => ({ counts with uploaded := counts.uploaded + 1 }, row)
  | .existing => ({ counts with alreadyExists := counts.alreadyExists + 1 }, row)

/-- The task set has room and the writer has not raised `stop`. -/
def State.mayFill (cfg : PipelineConfig) (state : State Future Call) : Prop :=
  state.set.length < cfg.concurrency ∧ state.stop = false

instance (cfg : PipelineConfig) (state : State Future Call) : Decidable (state.mayFill cfg) :=
  inferInstanceAs (Decidable (_ ∧ _))

def State.absorb (parts : Parts Future Call) (state : State Future Call) (path : PathBuf) :
    Joined → State Future Call
  | .panicked text =>
      { state with
        producer := .filling
        errors := state.errors ++ ["worker task failed: " ++ text] }
  | .result (.error error) =>
      { state with
        producer := .filling
        errors := state.errors ++ [path.display ++ ": " ++ error.display] }
  | .result (.ok outcome) =>
      let (counts, row) := tally state.counts outcome
      match row, parts.committer with
      | some row, some _ => { state with counts, producer := .sending row }
      | _, _ => { state with counts, producer := .filling }

def batchIndex (counts : CommitCounts) : Nat :=
  counts.batchesCommitted + counts.batchesFailed + 1

/-- `flush` up to its commit: take the batch and call the committer. -/
def State.flush (parts : Parts Future Call) (state : State Future Call) (batch : List FileInfo)
    (tail : Bool) : Option (State Future Call) :=
  parts.committer.map fun commit =>
    { state with writer := .committing batch (commit batch) tail }

/-- Row of the current batch, or the batch is full and flushed. -/
def State.accept (cfg : PipelineConfig) (parts : Parts Future Call) (state : State Future Call)
    (batch : List FileInfo) : Option (State Future Call) :=
  if cfg.batchSize ≤ batch.length then state.flush parts batch false
  else some { state with writer := .receiving batch }

def State.receiverOpen (state : State Future Call) : Bool :=
  match state.writer with
  | .returned _ => false
  | _ => true

def step (cfg : PipelineConfig) (parts : Parts Future Call) (state : State Future Call) :
    Action → Option (State Future Call)
  | .spawn =>
      match state.producer, state.pending with
      | .filling, path :: rest =>
          if state.mayFill cfg then
            some { state with
              pending := rest
              set := state.set ++ [⟨path, .running (parts.worker path)⟩] }
          else none
      | _, _ => none
  | .await =>
      match state.producer with
      | .filling =>
          if state.mayFill cfg ∧ state.pending ≠ [] then none
          else some { state with producer := .joining }
      | _ => none
  | .finish index joined =>
      match state.set[index]? with
      | some ⟨path, .running _⟩ =>
          some { state with set := state.set.set index ⟨path, .finished joined⟩ }
      | _ => none
  | .join index =>
      match state.producer, state.set[index]? with
      | .joining, some ⟨path, .finished joined⟩ =>
          some ({ state with set := state.set.eraseIdx index }.absorb parts path joined)
      | _, _ => none
  | .drain =>
      match state.producer, state.set with
      | .joining, [] =>
          some { state with
            pending := []
            counts := { state.counts with skipped := state.pending.length }
            producer := .returned }
      | _, _ => none
  | .send =>
      match state.producer with
      | .sending row =>
          if state.receiverOpen then
            if state.channel.length < cfg.batchSize then
              some { state with channel := state.channel ++ [row], producer := .filling }
            else none
          else some { state with producer := .filling }
      | _ => none
  | .recv =>
      match state.writer, state.channel with
      | .receiving batch, row :: rest =>
          { state with channel := rest }.accept cfg parts (batch ++ [row])
      | _, _ => none
  | .recvClosed =>
      match state.writer, state.channel, state.producer with
      | .receiving [], [], .returned => some { state with writer := .returned none }
      | .receiving batch, [], .returned => state.flush parts batch true
      | _, _, _ => none
  | .commitOk =>
      match state.writer with
      | .committing rows _ tail =>
          some { state with
            commit := { state.commit with
              committed := state.commit.committed + rows.length
              batchesCommitted := state.commit.batchesCommitted + 1 }
            writer := if tail then .returned none else .receiving [] }
      | _ => none
  | .commitErr error =>
      match state.writer with
      | .committing rows _ _ =>
          some { state with
            commit := { state.commit with batchesFailed := state.commit.batchesFailed + 1 }
            stop := true
            channel := []
            writer := .returned (some (error.context
              ("batch " ++ toString (batchIndex state.commit) ++ " (" ++
                toString rows.length ++ " rows)"))) }
      | _ => none

def start (parts : Parts Future Call) (files : List PathBuf) : State Future Call where
  pending := files
  set := []
  stop := false
  producer := .filling
  counts := {}
  errors := []
  channel := []
  writer := if parts.committer.isSome then .receiving [] else .returned none
  commit := {}

def machine (cfg : PipelineConfig) (parts : Parts Future Call) :
    GuardedMachine (State Future Call) Action where
  step := step cfg parts

structure PipelineReport where
  counts : IngestCounts
  commit : CommitCounts
  errors : List String
  commitFailure : Option Error

/-- The report, once producer and writer have both returned. -/
def State.report? (state : State Future Call) : Option PipelineReport :=
  match state.producer, state.writer with
  | .returned, .returned failure => some ⟨state.counts, state.commit, state.errors, failure⟩
  | _, _ => none

end Pipeline

end AntiEntropator.Ingest

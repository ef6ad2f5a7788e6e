import AntiEntropator.Ingest.Journal
import AntiEntropator.Ingest.Output
import AntiEntropator.Ingest.ProcessFile

/-!
# An ingest run

`run` as a process over the world it shares with others: source files, blobs,
journals and the catalog.  A process stops at each of its awaits and may be
killed there.  The catalog answers a commit in its own time: a request that was
sent lands or is lost, and the client may learn neither.
-/

namespace AntiEntropator.Ingest

open Lakehouse

structure World where
  files : SourceFiles
  blobs : ObjectStore
  journals : JournalStore
  catalog : List CatalogRow

/-- How a run was invoked. -/
structure RunPlan where
  runId : Uuid
  sourceId : String
  root : PathBuf
  mode : IngestMode
  pipeline : Pipeline.PipelineConfig

/-! ## Committing a batch -/

/-- Where a `JournaledCommitter::commit` waits. -/
inductive CommitPhase where
  | entered
  | savingCommitting (batch : Nat)
  /-- In the inner commit, before its transaction is sent. -/
  | committing (batch : Nat)
  | requested (batch : Nat)
  | savingCommitted
  | returned (result : Except Error Unit)
  deriving DecidableEq

structure CommitCall where
  rows : List FileInfo
  phase : CommitPhase := .entered
  deriving DecidableEq

inductive CommitAction where
  | enter (now : DateTime)
  | saved
  /-- The save fails; its write may have taken effect. -/
  | saveFailed (landed : Bool)
  /-- The inner commit fails before its transaction is sent. -/
  | innerFailed (error : Error)
  | request
  | acknowledged (now : DateTime)
  /-- The catalog rejects the transaction, or the response is lost. -/
  | requestFailed (error : Error)
  deriving DecidableEq

inductive RequestStatus where
  | inFlight
  | applied
  | lost
  deriving DecidableEq

/-- A transaction sent to the catalog. -/
structure Request where
  rows : List CatalogRow
  status : RequestStatus
  deriving DecidableEq

/-! ## The end of a run -/

def terminalState (report : Pipeline.PipelineReport) : RunState :=
  match report.commitFailure, report.errors.length with
  | some _, _ => .commitFailed (report.commit.batchesCommitted + 1)
  | none, 0 => .completed
  | none, failed + 1 => .incomplete (failed + 1)

/-- What `run` derives from the pipeline's report. -/
structure Conclusion where
  terminal : RunState
  summary : IngestSummary
  commitFailure : Option Error
  deriving DecidableEq

def Conclusion.build (plan : RunPlan) (candidates : Nat) (report : Pipeline.PipelineReport) :
    Conclusion where
  terminal := terminalState report
  summary := IngestSummary.build plan.mode plan.runId plan.sourceId
    { report.counts with candidates } report.commit report.errors
  commitFailure := report.commitFailure

def Conclusion.result (conclusion : Conclusion) : Except Error Unit :=
  finalizeIngest conclusion.summary conclusion.commitFailure

/-! ## The process -/

/-- The checks before the catalog state is read. -/
inductive SetupStage where
  | connectivity
  | schema
  | operator
  | session
  deriving DecidableEq

inductive RunPhase where
  | setup (stage : SetupStage)
  | loadingState
  | listing
  | loading (ids : List Uuid) (loaded : List RunJournal)
  /-- Open predecessors: still to reconcile, and reconciled. -/
  | reconciling (remaining done : List RunJournal)
  /-- Saving a reconciled predecessor. -/
  | closing (journal : RunJournal) (remaining done : List RunJournal)
  | collecting
  | starting
  | ingesting
  /-- Saving the terminal entry. -/
  | recording (conclusion : Conclusion)
  | superseding (remaining : List RunJournal) (conclusion : Conclusion)
  | exited (conclusion : Option Conclusion) (result : Except Error Unit)
  | killed

structure Run where
  plan : RunPlan
  phase : RunPhase
  state : Option CurrentState := none
  openRuns : List RunJournal := []
  files : List PathBuf := []
  pipe : Pipeline.State FileTask CommitCall
  /-- The journal writer's copy. -/
  journal : Option RunJournal := none
  /-- `JournaledCommitter::batches`. -/
  batches : Nat := 0
  request : Option Request := none

/-- What the workers see of the run. -/
def Run.context (run : Run) : FileContext where
  root := run.plan.root
  operator := run.plan.mode.isConnected
  mode := run.plan.mode
  runId := run.plan.runId
  sourceId := run.plan.sourceId
  state := run.state

/-- The worker, and the committer of a writing run. -/
def RunPlan.parts (plan : RunPlan) : Pipeline.Parts FileTask CommitCall where
  worker path := { path }
  committer := if plan.mode.writes then some fun rows => { rows } else none

def Run.start (plan : RunPlan) : Run where
  plan := plan
  phase := if plan.mode.isConnected then .setup .connectivity else .collecting
  pipe := Pipeline.start plan.parts []

structure Process where
  world : World
  run : Run

inductive PrologueAction where
  | proceed
  | setupFailed (error : Error)
  | loadState
  | loadStateFailed (error : Error)
  | list
  | listFailed (error : Error)
  /-- Read one listed journal. -/
  | load
  | loadFailed
  /-- All listed journals are read. -/
  | report
  /-- Count an open predecessor's rows; append the closure. -/
  | count (now : DateTime)
  | countFailed (error : Error)
  | closed
  | closeFailed (landed : Bool) (error : Error)
  /-- No predecessor is left. -/
  | reconciled
  | collect (files : List PathBuf)
  | collectFailed (error : Error)
  | started (now : DateTime)
  | startFailed (now : DateTime) (landed : Bool) (error : Error)
  deriving DecidableEq

inductive IngestAction where
  | pipeline (action : Pipeline.Action)
  /-- The worker at this position of the task set takes a step. -/
  | worker (index : Nat) (action : FileAction)
  | commit (action : CommitAction)
  deriving DecidableEq

inductive EpilogueAction where
  /-- The pipeline has reported. -/
  | conclude (now : DateTime)
  | recorded
  | recordFailed (landed : Bool)
  | supersede (now : DateTime)
  | supersedeFailed (now : DateTime) (landed : Bool)
  | exit
  deriving DecidableEq

inductive ProcessAction where
  | prologue (action : PrologueAction)
  | ingest (action : IngestAction)
  | epilogue (action : EpilogueAction)
  | kill
  /-- The catalog applies the request that is in flight. -/
  | land
  /-- The request that is in flight never takes effect. -/
  | lose
  /-- Somebody rewrites or removes a source file. -/
  | edit (path : PathBuf) (contents : Option Contents)
  deriving DecidableEq

/-- `save`: write the whole journal object. -/
def World.save (world : World) (journal : RunJournal) : World :=
  { world with journals := world.journals.insert journal.runId journal }

/-- A save that failed for the client. -/
def World.saveIf (world : World) (landed : Bool) (journal : RunJournal) : World :=
  if landed then world.save journal else world

namespace Process

def setPhase (process : Process) (phase : RunPhase) : Process :=
  { process with run := { process.run with phase } }

/-- The run ends before its pipeline has reported. -/
def fail (process : Process) (error : Error) : Process :=
  process.setPhase (.exited none (.error error))

def proceed (process : Process) : SetupStage → Process
  | .connectivity => process.setPhase (.setup .schema)
  | .schema => process.setPhase (.setup .operator)
  | .operator => process.setPhase (.setup .session)
  | .session => process.setPhase .loadingState

def setupError (error : Error) : SetupStage → Error
  | .connectivity => .msg ("Cannot connect to lakehouse: " ++ error.display ++
      ". Run `docker compose up -d`")
  | _ => error

/-- `report_open_runs`, once the journals are loaded. -/
def report (process : Process) (loaded : List RunJournal) : Process :=
  let «open» := openRunsFor loaded process.run.plan.sourceId
  if process.run.plan.mode.writes then process.setPhase (.reconciling «open» [])
  else { process with run := { process.run with openRuns := «open», phase := .collecting } }

def collected (process : Process) (files : List PathBuf) : Process :=
  let plan := process.run.plan
  if files = [] then
    process.setPhase (.exited none (finalizeIngest
      (IngestSummary.build plan.mode plan.runId plan.sourceId {} {} []) none))
  else
    { process with run := { process.run with
        files
        pipe := Pipeline.start plan.parts files
        phase := if plan.mode.writes then .starting else .ingesting } }

def newJournal (run : Run) (now : DateTime) : RunJournal :=
  RunJournal.new run.plan.runId run.plan.sourceId run.files.length now

def prologue (process : Process) (action : PrologueAction) : Option Process :=
  match process.run.phase, action with
  | .setup stage, .proceed => some (process.proceed stage)
  | .setup stage, .setupFailed error => some (process.fail (setupError error stage))
  | .loadingState, .loadState =>
      some { process with run := { process.run with
        state := some (loadCurrentState process.world.catalog process.run.plan.sourceId)
        phase := .listing } }
  | .loadingState, .loadStateFailed error =>
      some (process.fail (error.context
        "Cannot read current catalog state; refusing to guess which paths are unchanged"))
  | .listing, .list => some (process.setPhase (.loading process.world.journals.keys []))
  | .listing, .listFailed error =>
      some (process.fail ((error.context "Failed to list run journals").context
        "Cannot read run journals for this source"))
  | .loading (id :: ids) loaded, .load =>
      match process.world.journals.lookup id with
      | some journal => some (process.setPhase (.loading ids (loaded ++ [journal])))
      | none => none
  | .loading (_ :: ids) loaded, .loadFailed => some (process.setPhase (.loading ids loaded))
  | .loading [] loaded, .report => some (process.report loaded)
  | .reconciling (journal :: remaining) done, .count now =>
      let rows := countRowsForRun process.world.catalog process.run.plan.sourceId journal.runId
      some (process.setPhase (.closing (journal.push (.reconciled rows) now) remaining done))
  | .reconciling (_ :: _) _, .countFailed error => some (process.fail error)
  | .closing journal remaining done, .closed =>
      some { (process.setPhase (.reconciling remaining (done ++ [journal]))) with
        world := process.world.save journal }
  | .closing journal _ _, .closeFailed landed error =>
      some { (process.fail (error.context ("Cannot reconcile run " ++ journal.runId.display))) with
        world := process.world.saveIf landed journal }
  | .reconciling [] done, .reconciled =>
      some { process with run := { process.run with openRuns := done, phase := .collecting } }
  | .collecting, .collect files =>
      if (∀ path ∈ files, PathBuf.Below process.run.plan.root path) ∧ files.Nodup then
        some (process.collected files)
      else none
  | .collecting, .collectFailed error => some (process.fail error)
  | .starting, .started now =>
      let journal := newJournal process.run now
      some
        { world := process.world.save journal
          run := { process.run with journal := some journal, phase := .ingesting } }
  | .starting, .startFailed now landed error =>
      some { (process.fail (error.context
          "Cannot write the run journal; refusing to start an unrecorded run")) with
        world := process.world.saveIf landed (newJournal process.run now) }
  | _, _ => none

/-! ### Ingesting -/

/-- The pipeline's steps that its workers and its committer have to allow: a
task ends with its worker's result or a panic, a commit with its call's. -/
def allows (pipe : Pipeline.State FileTask CommitCall) : Pipeline.Action → Bool
  | .finish index (.result result) =>
      match pipe.set[index]? with
      | some ⟨_, .running task⟩ => task.result? = some result
      | _ => false
  | .commitOk =>
      match pipe.writer with
      | .committing _ call _ => call.phase = .returned (.ok ())
      | _ => false
  | .commitErr error =>
      match pipe.writer with
      | .committing _ call _ => call.phase = .returned (.error error)
      | _ => false
  | _ => true

def setPipe (process : Process) (pipe : Pipeline.State FileTask CommitCall) : Process :=
  { process with run := { process.run with pipe } }

def setCall (process : Process) (call : CommitCall) : Process :=
  match process.run.pipe.writer with
  | .committing rows _ tail =>
      process.setPipe { process.run.pipe with writer := .committing rows call tail }
  | _ => process

/-- `JournaledCommitter::commit`, and `commit_files` inside it. -/
def commit (process : Process) (call : CommitCall) (journal : RunJournal)
    (action : CommitAction) : Option Process :=
  match call.phase, action with
  | .entered, .enter now =>
      let batch := process.run.batches + 1
      let next := process.setCall { call with phase := .savingCommitting batch }
      some { next with run := { next.run with
        batches := batch
        journal := some (journal.push (.committing batch) now) } }
  | .savingCommitting batch, .saved =>
      some { (process.setCall { call with phase := .committing batch }) with
        world := process.world.save journal }
  | .savingCommitting batch, .saveFailed landed =>
      some { (process.setCall { call with phase := .committing batch }) with
        world := process.world.saveIf landed journal }
  | .committing _, .innerFailed error =>
      some (process.setCall { call with phase := .returned (.error error) })
  | .committing batch, .request =>
      let next := process.setCall { call with phase := .requested batch }
      some { next with run := { next.run with
        request := some ⟨filesToBatch call.rows, .inFlight⟩ } }
  | .requested batch, .acknowledged now =>
      match process.run.request with
      | some ⟨_, .applied⟩ =>
          let next := process.setCall { call with phase := .savingCommitted }
          some { next with run := { next.run with
            journal := some (journal.push (.batchCommitted batch call.rows.length) now) } }
      | _ => none
  | .requested _, .requestFailed error =>
      some (process.setCall { call with phase := .returned (.error error) })
  | .savingCommitted, .saved =>
      some { (process.setCall { call with phase := .returned (.ok ()) }) with
        world := process.world.save journal }
  | .savingCommitted, .saveFailed landed =>
      some { (process.setCall { call with phase := .returned (.ok ()) }) with
        world := process.world.saveIf landed journal }
  | _, _ => none

def ingest (deployment : Deployment) (process : Process) (action : IngestAction) :
    Option Process :=
  match process.run.phase, action with
  | .ingesting, .pipeline inner =>
      if allows process.run.pipe inner then
        (Pipeline.step process.run.plan.pipeline process.run.plan.parts process.run.pipe inner).map
          process.setPipe
      else none
  | .ingesting, .worker index inner =>
      match process.run.pipe.set[index]? with
      | some ⟨path, .running task⟩ =>
          (task.step deployment process.run.context process.world.files process.world.blobs
            inner).map fun (blobs, task) =>
              { (process.setPipe { process.run.pipe with
                  set := process.run.pipe.set.set index ⟨path, .running task⟩ }) with
                world := { process.world with blobs } }
      | _ => none
  | .ingesting, .commit inner =>
      match process.run.pipe.writer, process.run.journal with
      | .committing _ call _, some journal => process.commit call journal inner
      | _, _ => none
  | _, _ => none

/-! ### Ending -/

def epilogue (process : Process) (action : EpilogueAction) : Option Process :=
  match process.run.phase, action with
  | .ingesting, .conclude now =>
      match process.run.pipe.report? with
      | some report =>
          let conclusion := Conclusion.build process.run.plan process.run.files.length report
          match process.run.journal with
          | some journal =>
              some { process with run := { process.run with
                journal := some (journal.push conclusion.terminal now)
                phase := .recording conclusion } }
          | none => some (process.setPhase (.exited (some conclusion) conclusion.result))
      | none => none
  | .recording conclusion, .recorded =>
      match process.run.journal with
      | some journal =>
          some { (process.setPhase (if conclusion.terminal = .completed then
              .superseding process.run.openRuns conclusion
            else .exited (some conclusion) conclusion.result)) with
            world := process.world.save journal }
      | none => none
  | .recording conclusion, .recordFailed landed =>
      match process.run.journal with
      | some journal =>
          some { (process.setPhase (if conclusion.terminal = .completed then
              .superseding process.run.openRuns conclusion
            else .exited (some conclusion) conclusion.result)) with
            world := process.world.saveIf landed journal }
      | none => none
  | .superseding (journal :: remaining) conclusion, .supersede now =>
      some { (process.setPhase (.superseding remaining conclusion)) with
        world := process.world.save (journal.push (.supersededBy process.run.plan.runId) now) }
  | .superseding (journal :: remaining) conclusion, .supersedeFailed now landed =>
      some { (process.setPhase (.superseding remaining conclusion)) with
        world := process.world.saveIf landed
          (journal.push (.supersededBy process.run.plan.runId) now) }
  | .superseding [] conclusion, .exit =>
      some (process.setPhase (.exited (some conclusion) conclusion.result))
  | _, _ => none

/-- The run is neither finished nor dead. -/
def alive (process : Process) : Bool :=
  match process.run.phase with
  | .exited _ _ | .killed => false
  | _ => true

def step (deployment : Deployment) (process : Process) : ProcessAction → Option Process
  | .prologue action => process.prologue action
  | .ingest action => process.ingest deployment action
  | .epilogue action => process.epilogue action
  | .kill => if process.alive then some (process.setPhase .killed) else none
  | .land =>
      match process.run.request with
      | some ⟨rows, .inFlight⟩ => some
          { world := { process.world with catalog := process.world.catalog ++ rows }
            run := { process.run with request := some ⟨rows, .applied⟩ } }
      | _ => none
  | .lose =>
      match process.run.request with
      | some ⟨rows, .inFlight⟩ => some { process with
          run := { process.run with request := some ⟨rows, .lost⟩ } }
      | _ => none
  | .edit path contents => some { process with
      world := { process.world with
        files := Function.update process.world.files path contents } }

end Process

/-- A single run, with the catalog and the file system acting around it. -/
def Process.machine (deployment : Deployment) : GuardedMachine Process ProcessAction where
  step := Process.step deployment

end AntiEntropator.Ingest

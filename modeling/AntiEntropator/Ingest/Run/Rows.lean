import AntiEntropator.Ingest.Pipeline.Rows
import AntiEntropator.Ingest.ProcessFile.Row
import AntiEntropator.Ingest.Run.Phases

/-!
# The rows of a run

Every row on its way to the catalog was built by one of the run's workers: in
the pipeline, in the commit call and in the request that was sent.
-/

namespace AntiEntropator.Ingest

open Lakehouse

/-- Running tasks satisfy `Running` and the outcomes of finished ones `Right`. -/
structure Run.Judged (Running : PathBuf → FileTask → Prop)
    (Right : PathBuf → IngestOutcome → Prop) (run : Run) : Prop where
  pending : run.pipe.pending ⊆ run.files
  tasks : Pipeline.Judged Running Right run.pipe

/-- What the pipeline of a run carries, up to its last request. -/
structure Run.Carries (Running : PathBuf → FileTask → Prop) (Row : PathBuf → FileInfo → Prop)
    (run : Run) : Prop where
  judged : run.Judged Running (Pipeline.Inherits Row)
  held : ∀ info ∈ run.pipe.held, ∃ path, Row path info
  call : ∀ rows call tail, run.pipe.writer = .committing rows call tail → call.rows = rows
  request : ∀ request, run.request = some request →
    ∃ batch, request.rows = filesToBatch batch ∧ ∀ info ∈ batch, ∃ path, Row path info

section Judged

variable {Running Running' : PathBuf → FileTask → Prop}
  {Right Right' : PathBuf → IngestOutcome → Prop}

theorem Run.Judged.mono {run : Run} (judged : run.Judged Running Right)
    (running : ∀ path task, Running path task → Running' path task)
    (right : ∀ path outcome, Right path outcome → Right' path outcome) :
    run.Judged Running' Right' :=
  ⟨judged.pending, judged.tasks.mono running right⟩

theorem Run.Fresh.judged {run : Run} (fresh : run.Fresh) : run.Judged Running Right where
  pending := by
    rw [fresh.pipe]
    exact List.Subset.refl _
  tasks := fresh.pipe ▸ Pipeline.judged_start _ _

theorem Run.Judged.congr {run next : Run} (judged : run.Judged Running Right)
    (files : next.files = run.files) (pipe : next.pipe = run.pipe) : next.Judged Running Right where
  pending := by
    rw [files, pipe]
    exact judged.pending
  tasks := pipe ▸ judged.tasks

namespace Process

/-- Before the journal no task runs, so any property holds of all of them. -/
theorem PrologueStep.judged {process next : Process} {action : PrologueAction}
    (untouched : process.run.Fresh) (stepped : PrologueStep process action next) :
    next.run.Judged Running Right := by
  cases stepped with
  | @proceed stage => cases stage <;> exact untouched.judged.congr rfl rfl
  | report =>
      simp only [Process.report]
      split <;> exact untouched.judged.congr rfl rfl
  | @collected files =>
      simp only [Process.collected]
      split
      · exact untouched.judged.congr rfl rfl
      · exact ⟨List.Subset.refl _, Pipeline.judged_start _ _⟩
  | _ => exact untouched.judged.congr rfl rfl

/-- What tasks and outcomes satisfy after a step, if every task's own step
establishes it and a task that returns hands it over to its outcome. -/
theorem Step.judged {deployment : Deployment} {process next : Process} {action : ProcessAction}
    (fresh : Unrecorded process.run.phase → process.run.Fresh)
    (judged : process.run.Judged Running Right)
    (running : ∀ path task, Running path task → Running' path task)
    (right : ∀ path outcome, Right path outcome → Right' path outcome)
    (spawned : ∀ path ∈ process.run.files, Running' path { path })
    (ended : ∀ path task outcome, Running' path task → task.result? = some (.ok outcome) →
      Right' path outcome)
    (worked : ∀ index inner path task blobs task', action = .ingest (.worker index inner) →
      process.run.pipe.set[index]? = some ⟨path, .running task⟩ → Running path task →
      task.step deployment process.run.context process.world.files process.world.blobs inner =
        some (blobs, task') → next.world.blobs = blobs → Running' path task')
    (stepped : Step deployment process action next) : next.run.Judged Running' Right' := by
  have later := judged.mono running right
  cases stepped with
  | prologue taken => exact taken.judged (fresh taken.unrecorded)
  | ingest taken =>
      cases taken with
      | @pipeline inner pipe phase allowed moved =>
          refine ⟨fun path member => later.pending (Pipeline.pending_step moved member), ?_⟩
          apply later.tasks.step _ _ moved
          · exact fun path member => spawned path (later.pending member)
          · rintro index path task outcome rfl found before
            simp only [allows, found, decide_eq_true_eq] at allowed
            exact ended path task outcome before allowed
      | worker phase found moved =>
          refine ⟨later.pending, judged.tasks.setRunning running right found ?_⟩
          intro before
          exact worked _ _ _ _ _ _ rfl found before moved rfl
      | commit phase committing recorded moved =>
          obtain ⟨-, files, -, -, changed, pipe⟩ := moved.frame
          refine ⟨?_, ?_⟩
          · rw [files, pipe]
            exact later.pending
          · rw [pipe]
            exact later.tasks.subset fun _ member => member
  | epilogue taken => cases taken <;> exact later.congr rfl rfl
  | kill => exact later.congr rfl rfl
  | land => exact later.congr rfl rfl
  | lose => exact later.congr rfl rfl
  | edit => exact later

end Process

end Judged

section Carries

variable {Running Running' : PathBuf → FileTask → Prop} {Row Row' : PathBuf → FileInfo → Prop}

theorem Run.Carries.mono {run : Run} (carries : run.Carries Running Row)
    (running : ∀ path task, Running path task → Running' path task)
    (row : ∀ path info, Row path info → Row' path info) : run.Carries Running' Row' where
  judged := carries.judged.mono running fun _ _ inherits => inherits.mono row
  held := by
    intro info member
    obtain ⟨path, satisfied⟩ := carries.held info member
    exact ⟨path, row path info satisfied⟩
  call := carries.call
  request := by
    intro request sent
    obtain ⟨batch, rows, each⟩ := carries.request request sent
    refine ⟨batch, rows, fun info member => ?_⟩
    obtain ⟨path, satisfied⟩ := each info member
    exact ⟨path, row path info satisfied⟩

theorem Run.Fresh.carries {run : Run} (fresh : run.Fresh) : run.Carries Running Row where
  judged := fresh.judged
  held := by
    rw [fresh.pipe, Pipeline.held_start]
    simp
  call := by
    intro rows call tail committing
    rw [fresh.pipe] at committing
    simp only [Pipeline.start] at committing
    split at committing <;> cases committing
  request := by simp [fresh.request]

theorem Run.Carries.congr {run next : Run} (carries : run.Carries Running Row)
    (files : next.files = run.files) (pipe : next.pipe = run.pipe)
    (request : next.request = run.request) : next.Carries Running Row where
  judged := carries.judged.congr files pipe
  held := pipe ▸ carries.held
  call := pipe ▸ carries.call
  request := request ▸ carries.request

namespace Process

theorem call_rows_of_step {plan : RunPlan} {pipe next : Pipeline.State FileTask CommitCall}
    {action : Pipeline.Action}
    (call : ∀ rows call tail, pipe.writer = .committing rows call tail → call.rows = rows)
    (stepped : Pipeline.step plan.pipeline plan.parts pipe action = some next) :
    ∀ rows call tail, next.writer = .committing rows call tail → call.rows = rows := by
  have fresh : ∀ {commit : List FileInfo → CommitCall} {rows : List FileInfo},
      plan.parts.committer = some commit → (commit rows).rows = rows := by
    intro commit rows committer
    simp only [RunPlan.parts] at committer
    split at committer
    · cases committer
      rfl
    · cases committer
  cases Pipeline.Step.of_step stepped with
  | recvMore => simp
  | recvFull receiving channel full committer =>
      rintro rows call tail committing
      cases committing
      exact fresh committer
  | recvClosedEmpty => simp
  | recvClosedTail receiving channel returned nonempty committer =>
      rintro rows call tail committing
      cases committing
      exact fresh committer
  | @commitOk rows call tail committing => cases tail <;> simp
  | commitErr => simp
  | _ => exact call

theorem CommitStep.carries {process next : Process} {rows : List FileInfo} {call : CommitCall}
    {tail : Bool} {journal : RunJournal} {action : CommitAction}
    (carries : process.run.Carries Running Row)
    (committing : process.run.pipe.writer = .committing rows call tail)
    (stepped : CommitStep process rows call tail journal action next) :
    next.run.Carries Running Row := by
  have same := carries.call rows call tail committing
  have called : ∀ phase : CommitPhase,
      (process.withCall rows { call with phase } tail).run.Carries Running Row := by
    intro phase
    refine ⟨⟨carries.judged.pending, carries.judged.tasks.subset fun _ member => member⟩,
      ?_, ?_, carries.request⟩
    · intro info member
      apply carries.held
      rwa [← Pipeline.held_setCall _ committing]
    · rintro others other last found
      cases found
      exact same
  cases stepped with
  | @request batch phase =>
      have moved := called (.requested batch)
      refine ⟨moved.judged.congr rfl rfl, moved.held, moved.call, ?_⟩
      rintro request sent
      cases sent
      refine ⟨call.rows, rfl, fun info member => carries.held info ?_⟩
      simp only [Pipeline.State.held, committing, Pipeline.Writer.rows]
      exact List.mem_append_right _ (same ▸ member)
  | enter => exact (called (.savingCommitting (process.run.batches + 1))).congr rfl rfl rfl
  | acknowledged => exact (called .savingCommitted).congr rfl rfl rfl
  | _ => exact called _

theorem PrologueStep.carries {process next : Process} {action : PrologueAction}
    (untouched : process.run.Fresh) (stepped : PrologueStep process action next) :
    next.run.Carries Running Row := by
  cases stepped with
  | @proceed stage => cases stage <;> exact untouched.carries.congr rfl rfl rfl
  | report =>
      simp only [Process.report]
      split <;> exact untouched.carries.congr rfl rfl rfl
  | @collected files =>
      simp only [Process.collected]
      split
      · exact untouched.carries.congr rfl rfl rfl
      · have restarted : Run.Fresh { process.run with
            files := files, pipe := Pipeline.start process.run.plan.parts files } :=
          { untouched with pipe := rfl }
        exact restarted.carries.congr rfl rfl rfl
  | _ => exact untouched.carries.congr rfl rfl rfl

/-- What running tasks and rows satisfy after a step, if every task's own step
establishes it and a task that returns a row hands it over. -/
theorem Step.carries {deployment : Deployment} {process next : Process} {action : ProcessAction}
    (fresh : Unrecorded process.run.phase → process.run.Fresh)
    (carries : process.run.Carries Running Row)
    (running : ∀ path task, Running path task → Running' path task)
    (row : ∀ path info, Row path info → Row' path info)
    (spawned : ∀ path ∈ process.run.files, Running' path { path })
    (ended : ∀ path task outcome, Running' path task → task.result? = some (.ok outcome) →
      Pipeline.Inherits Row' path outcome)
    (worked : ∀ index inner path task blobs task', action = .ingest (.worker index inner) →
      process.run.pipe.set[index]? = some ⟨path, .running task⟩ → Running path task →
      task.step deployment process.run.context process.world.files process.world.blobs inner =
        some (blobs, task') → next.world.blobs = blobs → Running' path task')
    (stepped : Step deployment process action next) : next.run.Carries Running' Row' := by
  have later := carries.mono running row
  have judged := stepped.judged fresh carries.judged running
    (fun _ _ inherits => inherits.mono row) spawned ended worked
  cases stepped with
  | prologue taken => exact taken.carries (fresh taken.unrecorded)
  | ingest taken =>
      cases taken with
      | @pipeline inner pipe phase allowed moved =>
          refine ⟨judged, ?_, call_rows_of_step later.call moved, later.request⟩
          intro info member
          rcases Pipeline.held_step moved info member with
            old | ⟨index, path, outcome, -, found, shown⟩
          · exact later.held info old
          · have finished := later.judged.tasks.finished path outcome (List.mem_of_getElem? found)
            exact ⟨path, finished info shown⟩
      | worker => exact ⟨judged, later.held, later.call, later.request⟩
      | commit phase committing recorded moved => exact moved.carries later committing
  | epilogue taken => cases taken <;> exact later.congr rfl rfl rfl
  | kill => exact later.congr rfl rfl rfl
  | land flying =>
      refine ⟨judged, later.held, later.call, ?_⟩
      rintro request sent
      cases sent
      exact later.request ⟨_, .inFlight⟩ flying
  | lose flying =>
      refine ⟨judged, later.held, later.call, ?_⟩
      rintro request sent
      cases sent
      exact later.request ⟨_, .inFlight⟩ flying
  | edit => exact later

end Process

end Carries

/-! ## Every row is news -/

/-- Workers are valid and rows are observations of candidates by this run. -/
def Run.Built (deployment : Deployment) (times : List DateTime) (run : Run) : Prop :=
  run.Carries
    (fun path task =>
      path ∈ run.files ∧ task.path = path ∧ task.Valid deployment run.context times)
    (fun path info => path ∈ run.files ∧ NewRow deployment run.context times path info)

namespace Process

/-- The observation times an action reads from the clock. -/
def readings (_ : Process) : ProcessAction → List DateTime
  | .ingest (.worker _ action) => (FileTask.observationTime? action).toList
  | _ => []

theorem Step.context_eq {deployment : Deployment} {process next : Process}
    {action : ProcessAction} (stepped : Step deployment process action next)
    (started : ¬ Unrecorded process.run.phase) : next.run.context = process.run.context := by
  cases stepped with
  | prologue taken => exact (started taken.unrecorded).elim
  | ingest taken =>
      cases taken with
      | commit phase committing recorded moved => cases moved <;> rfl
      | _ => rfl
  | epilogue taken => cases taken <;> rfl
  | _ => rfl

theorem Step.files_eq {deployment : Deployment} {process next : Process}
    {action : ProcessAction} (stepped : Step deployment process action next)
    (started : ¬ Unrecorded process.run.phase) : next.run.files = process.run.files := by
  cases stepped with
  | prologue taken => exact (started taken.unrecorded).elim
  | ingest taken =>
      cases taken with
      | commit phase committing recorded moved => exact moved.frame.2.1
      | _ => rfl
  | epilogue taken => cases taken <;> rfl
  | _ => rfl

theorem Step.carries_of_fresh {deployment : Deployment} {process next : Process}
    {action : ProcessAction} {Running : PathBuf → FileTask → Prop}
    {Row : PathBuf → FileInfo → Prop} (fresh : process.run.Fresh)
    (unrecorded : Unrecorded process.run.phase)
    (stepped : Step deployment process action next) : next.run.Carries Running Row := by
  cases stepped with
  | prologue taken => exact taken.carries fresh
  | ingest taken => exact (not_unrecorded_ingesting taken.phase_eq.1 unrecorded).elim
  | epilogue taken => exact (taken.phase_recorded unrecorded).elim
  | kill => exact fresh.carries.congr rfl rfl rfl
  | land flying => simp [fresh.request] at flying
  | lose flying => simp [fresh.request] at flying
  | edit => exact fresh.carries

theorem Step.built {deployment : Deployment} {process next : Process} {action : ProcessAction}
    {times : List DateTime} (fresh : Unrecorded process.run.phase → process.run.Fresh)
    (built : process.run.Built deployment times)
    (stepped : Step deployment process action next) :
    next.run.Built deployment (times ++ process.readings action) := by
  by_cases unrecorded : Unrecorded process.run.phase
  · exact stepped.carries_of_fresh (fresh unrecorded) unrecorded
  · have context := stepped.context_eq unrecorded
    have files := stepped.files_eq unrecorded
    unfold Run.Built
    rw [context, files]
    have more : times ⊆ times ++ process.readings action := List.subset_append_left _ _
    apply Step.carries fresh built _ _ _ _ _ stepped
    · rintro path task ⟨candidate, same, valid⟩
      exact ⟨candidate, same, valid.mono more⟩
    · rintro path info ⟨candidate, row⟩
      exact ⟨candidate, row.mono more⟩
    · intro path candidate
      exact ⟨candidate, rfl, trivial⟩
    · rintro path task outcome ⟨candidate, rfl, valid⟩ returned info shown
      exact ⟨candidate, valid.newRow returned shown⟩
    · rintro index inner path task blobs task' rfl - ⟨candidate, rfl, valid⟩ moved -
      refine ⟨candidate, FileTask.step_path moved, (valid.mono more).step ?_ moved⟩
      intro now read
      apply List.mem_append_right
      simp [readings, read]

section Runs

variable {deployment : Deployment} {plan : RunPlan} {world : World}
  {actions : List ProcessAction} {final : Process}

theorem built_of_exec
    (exec : (machine deployment).exec ⟨world, Run.start plan⟩ actions = some final) :
    final.run.Built deployment
      ((machine deployment).observe readings ⟨world, Run.start plan⟩ actions) := by
  refine (machine deployment).exec_induction (motive := fun actions (process : Process) =>
    process.run.Built deployment
      ((machine deployment).observe readings ⟨world, Run.start plan⟩ actions)) ?_ ?_ exec
  · exact (Run.fresh_start plan).carries
  · intro actions middle action next before built stepped
    rw [(machine deployment).observe_snoc _ before stepped]
    exact (Step.of_step stepped).built (fresh_of_exec before) built

end Runs

end Process

end AntiEntropator.Ingest

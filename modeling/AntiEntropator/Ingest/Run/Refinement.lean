import AntiEntropator.Ingest.Pipeline.Erase
import AntiEntropator.Ingest.Run.Step

/-!
# A run drives the pipeline

Whatever a run's workers, its journal and the catalog do, its pipeline state is
one that the bare pipeline reaches on the run's candidates by some schedule.
All results about the pipeline hold of it.
-/

namespace AntiEntropator.Ingest

/-- The run's pipeline, payloads aside, is reached by a schedule of the bare
pipeline on the run's candidates. -/
def Run.PipelineReached (run : Run) : Prop :=
  ∃ actions, (Pipeline.machine run.plan.pipeline run.plan.parts.erase).exec
    (Pipeline.start run.plan.parts.erase run.files) actions = some run.pipe.erase

theorem Run.PipelineReached.congr {run next : Run} (reached : run.PipelineReached)
    (plan : next.plan = run.plan) (files : next.files = run.files)
    (pipe : next.pipe.erase = run.pipe.erase) : next.PipelineReached := by
  obtain ⟨actions, exec⟩ := reached
  exact ⟨actions, by rw [plan, files, pipe]; exact exec⟩

theorem Run.pipelineReached_start (plan : RunPlan) : (Run.start plan).PipelineReached :=
  ⟨[], by simp [Run.start]⟩

/-- A worker's step is invisible to the bare pipeline. -/
theorem Pipeline.erase_setRunning {Future Call : Type} {state : State Future Call} {index : Nat}
    {path : PathBuf} {future : Future} (changed : Future)
    (found : state.set[index]? = some ⟨path, .running future⟩) :
    State.erase { state with set := state.set.set index ⟨path, .running changed⟩ } =
      state.erase := by
  obtain ⟨inside, here⟩ := List.getElem?_eq_some_iff.mp found
  have there : index < (state.set.map Task.erase).length := by simpa using inside
  have same : (state.set.map Task.erase)[index] = Task.erase ⟨path, .running changed⟩ := by
    rw [List.getElem_map, here]
    rfl
  simp only [State.erase, List.map_set]
  rw [← same, List.set_getElem_self there]

theorem Pipeline.erase_setCall {Future Call : Type} {state : State Future Call}
    {rows : List FileInfo} {call : Call} {tail : Bool} (changed : Call)
    (committing : state.writer = .committing rows call tail) :
    State.erase { state with writer := .committing rows changed tail } = state.erase := by
  simp [State.erase, committing, Writer.erase]

namespace Process

/-- A commit call changes neither the plan nor the candidates nor, payloads
aside, the pipeline. -/
theorem CommitStep.frame {process next : Process} {rows : List FileInfo} {call : CommitCall}
    {tail : Bool} {journal : RunJournal} {action : CommitAction}
    (stepped : CommitStep process rows call tail journal action next) :
    next.run.plan = process.run.plan ∧ next.run.files = process.run.files ∧
      next.run.phase = process.run.phase ∧ next.run.openRuns = process.run.openRuns ∧
      ∃ changed, next.run.pipe =
        { process.run.pipe with writer := .committing rows changed tail } := by
  cases stepped <;> exact ⟨rfl, rfl, rfl, rfl, _, rfl⟩

theorem report_frame (process : Process) (loaded : List RunJournal) :
    (process.report loaded).run.plan = process.run.plan ∧
      (process.report loaded).run.files = process.run.files ∧
      (process.report loaded).run.pipe = process.run.pipe := by
  simp only [report]
  split <;> exact ⟨rfl, rfl, rfl⟩

theorem PrologueStep.plan_eq {process next : Process} {action : PrologueAction}
    (stepped : PrologueStep process action next) : next.run.plan = process.run.plan := by
  cases stepped with
  | @proceed stage => cases stage <;> rfl
  | report => exact (report_frame process _).1
  | collected =>
      simp only [Process.collected]
      split <;> rfl
  | _ => rfl

theorem Step.plan_eq {deployment : Deployment} {process next : Process} {action : ProcessAction}
    (stepped : Step deployment process action next) : next.run.plan = process.run.plan := by
  cases stepped with
  | prologue taken => exact taken.plan_eq
  | ingest taken =>
      cases taken with
      | commit phase committing recorded moved => exact moved.frame.1
      | _ => rfl
  | epilogue taken => cases taken <;> rfl
  | _ => rfl

theorem plan_of_exec {deployment : Deployment} {plan : RunPlan} {world : World}
    {actions : List ProcessAction} {process : Process}
    (run : (machine deployment).exec ⟨world, Run.start plan⟩ actions = some process) :
    process.run.plan = plan :=
  (machine deployment).exec_invariant (fun process => process.run.plan = plan) rfl
    (fun _ _ _ same stepped => (Step.of_step stepped).plan_eq.trans same) run

theorem PrologueStep.pipelineReached {process next : Process} {action : PrologueAction}
    (reached : process.run.PipelineReached) (stepped : PrologueStep process action next) :
    next.run.PipelineReached := by
  cases stepped with
  | @proceed stage => cases stage <;> exact reached.congr rfl rfl rfl
  | report =>
      obtain ⟨plan, files, pipe⟩ := report_frame process _
      exact reached.congr plan files (congrArg _ pipe)
  | collected =>
      simp only [Process.collected]
      split
      · exact reached.congr rfl rfl rfl
      · exact ⟨[], by simp⟩
  | _ => exact reached.congr rfl rfl rfl

theorem Step.pipelineReached {deployment : Deployment} {process next : Process}
    {action : ProcessAction} (reached : process.run.PipelineReached)
    (stepped : Step deployment process action next) : next.run.PipelineReached := by
  cases stepped with
  | prologue taken => exact taken.pipelineReached reached
  | ingest taken =>
      cases taken with
      | @pipeline inner pipe phase allowed moved =>
          obtain ⟨actions, exec⟩ := reached
          refine ⟨actions ++ [inner], ?_⟩
          exact (Pipeline.machine _ _).exec_snoc_eq_some_iff.mpr
            ⟨_, exec, Pipeline.step_erase moved⟩
      | worker phase found => exact reached.congr rfl rfl (Pipeline.erase_setRunning _ found)
      | commit phase committing recorded moved =>
          obtain ⟨plan, files, -, -, changed, pipe⟩ := moved.frame
          refine reached.congr plan files ?_
          rw [pipe]
          exact Pipeline.erase_setCall changed committing
  | epilogue taken => cases taken <;> exact reached.congr rfl rfl rfl
  | _ => exact reached.congr rfl rfl rfl

theorem pipelineReached_of_exec {deployment : Deployment} {plan : RunPlan} {world : World}
    {actions : List ProcessAction} {process : Process}
    (run : (machine deployment).exec ⟨world, Run.start plan⟩ actions = some process) :
    process.run.PipelineReached :=
  (machine deployment).exec_invariant (fun process => process.run.PipelineReached)
    (Run.pipelineReached_start plan)
    (fun _ _ _ reached stepped => (Step.of_step stepped).pipelineReached reached) run

end Process

end AntiEntropator.Ingest

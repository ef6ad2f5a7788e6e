import AntiEntropator.Ingest.Run.Refinement

/-!
# Before the journal

Until the candidates are known and its journal exists, a run has touched
nothing: these phases are left once and never entered again.
-/

namespace AntiEntropator.Ingest

/-- The pipeline has not moved and there is no journal. -/
structure Run.Fresh (run : Run) : Prop where
  pipe : run.pipe = Pipeline.start run.plan.parts run.files
  journal : run.journal = none
  batches : run.batches = 0
  request : run.request = none

theorem Run.fresh_start (plan : RunPlan) : (Run.start plan).Fresh := ⟨rfl, rfl, rfl, rfl⟩

namespace Process

/-- The phases before the journal is created. -/
def Unrecorded (phase : RunPhase) : Prop := Early phase ∨ phase = .starting

theorem not_unrecorded_ingesting {phase : RunPhase} (ingesting : phase = .ingesting) :
    ¬ Unrecorded phase := by
  rintro (early | starting)
  · rw [ingesting] at early
    exact early
  · rw [ingesting] at starting
    cases starting

/-- Ingesting and ending never lead back. -/
theorem IngestStep.phase_eq {deployment : Deployment} {process next : Process}
    {action : IngestAction} (stepped : IngestStep deployment process action next) :
    process.run.phase = .ingesting ∧ next.run.phase = .ingesting := by
  cases stepped with
  | pipeline phase => exact ⟨phase, phase⟩
  | worker phase => exact ⟨phase, phase⟩
  | commit phase committing recorded moved => exact ⟨phase, moved.frame.2.2.1.trans phase⟩

theorem EpilogueStep.phase_recorded {process next : Process} {action : EpilogueAction}
    (stepped : EpilogueStep process action next) : ¬ Unrecorded process.run.phase := by
  rintro (early | starting)
  · cases stepped with
    | conclude phase | concludePreview phase | recorded phase | recordFailed phase
    | supersede phase | supersedeFailed phase | exit phase => simp [phase, Early] at early
  · cases stepped with
    | conclude phase | concludePreview phase | recorded phase | recordFailed phase
    | supersede phase | supersedeFailed phase | exit phase => simp [phase] at starting

theorem EpilogueStep.recorded_phase {process next : Process} {action : EpilogueAction}
    (stepped : EpilogueStep process action next) : ¬ Unrecorded next.run.phase := by
  rintro (early | starting)
  · cases stepped with
    | recorded =>
        simp only [afterRecord] at early
        split at early <;> exact early
    | recordFailed =>
        simp only [afterRecord] at early
        split at early <;> exact early
    | _ => exact early
  · cases stepped with
    | recorded =>
        simp only [afterRecord, setPhase] at starting
        split at starting <;> cases starting
    | recordFailed =>
        simp only [afterRecord, setPhase] at starting
        split at starting <;> cases starting
    | _ => cases starting

theorem PrologueStep.unrecorded {process next : Process} {action : PrologueAction}
    (stepped : PrologueStep process action next) : Unrecorded process.run.phase := by
  cases stepped with
  | failed error early fails => exact .inl early
  | started phase => exact .inr phase
  | startFailed text phase => exact .inr phase
  | proceed phase | loadState phase | list phase | load phase | loadFailed phase
  | report phase | count phase | closed phase | closeFailed _ phase | reconciled phase
  | collected phase =>
      apply Or.inl
      rw [phase]
      trivial

theorem PrologueStep.fresh {process next : Process} {action : PrologueAction}
    (stepped : PrologueStep process action next) (fresh : process.run.Fresh)
    (waiting : next.run.phase ≠ .ingesting) : next.run.Fresh := by
  cases stepped with
  | @proceed stage => cases stage <;> exact { fresh with }
  | report =>
      simp only [Process.report]
      split <;> exact { fresh with }
  | collected =>
      simp only [Process.collected]
      split
      · exact { fresh with }
      · exact { fresh with pipe := rfl }
  | started => exact (waiting rfl).elim
  | _ => exact { fresh with }

theorem Step.unrecorded {deployment : Deployment} {process next : Process}
    {action : ProcessAction} (stepped : Step deployment process action next)
    (unrecorded : Unrecorded next.run.phase) : Unrecorded process.run.phase := by
  cases stepped with
  | prologue taken => exact taken.unrecorded
  | ingest taken => exact (not_unrecorded_ingesting taken.phase_eq.2 unrecorded).elim
  | epilogue taken => exact (taken.recorded_phase unrecorded).elim
  | kill => rcases unrecorded with early | starting <;> contradiction
  | land => exact unrecorded
  | lose => exact unrecorded
  | edit => exact unrecorded

theorem Step.fresh {deployment : Deployment} {process next : Process} {action : ProcessAction}
    (fresh : Unrecorded process.run.phase → process.run.Fresh)
    (stepped : Step deployment process action next) (unrecorded : Unrecorded next.run.phase) :
    next.run.Fresh := by
  cases stepped with
  | prologue taken =>
      exact taken.fresh (fresh taken.unrecorded)
        fun ingesting => not_unrecorded_ingesting ingesting unrecorded
  | ingest taken => exact (not_unrecorded_ingesting taken.phase_eq.2 unrecorded).elim
  | epilogue taken => exact (taken.recorded_phase unrecorded).elim
  | kill => rcases unrecorded with early | starting <;> contradiction
  | land flying => simp [(fresh unrecorded).request] at flying
  | lose flying => simp [(fresh unrecorded).request] at flying
  | edit => exact fresh unrecorded

theorem fresh_of_exec {deployment : Deployment} {plan : RunPlan} {world : World}
    {actions : List ProcessAction} {final : Process}
    (exec : (machine deployment).exec ⟨world, Run.start plan⟩ actions = some final) :
    Unrecorded final.run.phase → final.run.Fresh :=
  (machine deployment).exec_invariant
    (fun process => Unrecorded process.run.phase → process.run.Fresh)
    (fun _ => Run.fresh_start plan)
    (fun _ _ _ fresh stepped => (Step.of_step stepped).fresh fresh) exec

/-- The run has no journal of its own yet, or failed without one. -/
def Unstarted (phase : RunPhase) : Prop :=
  Unrecorded phase ∨ ∃ result, phase = .exited none result

theorem not_unstarted_ingesting {phase : RunPhase} (ingesting : phase = .ingesting) :
    ¬ Unstarted phase := by
  rintro (unrecorded | ⟨result, ended⟩)
  · exact not_unrecorded_ingesting ingesting unrecorded
  · rw [ingesting] at ended
    cases ended

theorem EpilogueStep.phase_started {process next : Process} {action : EpilogueAction}
    (stepped : EpilogueStep process action next) : ¬ Unstarted process.run.phase := by
  rintro (unrecorded | ⟨result, ended⟩)
  · exact stepped.phase_recorded unrecorded
  · cases stepped with
    | conclude phase | concludePreview phase | recorded phase | recordFailed phase
    | supersede phase | supersedeFailed phase | exit phase =>
        rw [phase] at ended
        cases ended

theorem Step.unstarted {deployment : Deployment} {process next : Process}
    {action : ProcessAction} (stepped : Step deployment process action next)
    (unstarted : Unstarted next.run.phase) : Unstarted process.run.phase := by
  rcases unstarted with unrecorded | ⟨result, ended⟩
  · exact .inl (stepped.unrecorded unrecorded)
  · cases stepped with
    | prologue taken => exact .inl taken.unrecorded
    | ingest taken =>
        rw [taken.phase_eq.2] at ended
        cases ended
    | epilogue taken =>
        cases taken with
        | recorded | recordFailed =>
            simp only [afterRecord, setPhase] at ended
            split at ended <;> cases ended
        | _ => cases ended
    | kill => cases ended
    | _ => exact .inr ⟨result, ended⟩

theorem fresh_of_unstarted {deployment : Deployment} {plan : RunPlan} {world : World}
    {actions : List ProcessAction} {final : Process}
    (exec : (machine deployment).exec ⟨world, Run.start plan⟩ actions = some final) :
    Unstarted final.run.phase → final.run.Fresh := by
  refine (machine deployment).exec_invariant
    (fun process => Unstarted process.run.phase → process.run.Fresh)
    (fun _ => Run.fresh_start plan) (fun process action next fresh stepped unstarted => ?_) exec
  have earlier := fresh ((Step.of_step stepped).unstarted unstarted)
  cases Step.of_step stepped with
  | prologue taken =>
      exact taken.fresh earlier fun ingesting => not_unstarted_ingesting ingesting unstarted
  | ingest taken => exact (not_unstarted_ingesting taken.phase_eq.2 unstarted).elim
  | epilogue taken =>
      have whole : Step deployment process (.epilogue _) next := .epilogue taken
      exact (taken.phase_started (whole.unstarted unstarted)).elim
  | kill => exact { earlier with }
  | land flying => simp [earlier.request] at flying
  | lose flying => simp [earlier.request] at flying
  | edit => exact earlier

/-! ## What a run knows of the catalog -/

/-- A connected run reads the catalog state before it collects its candidates. -/
def Informed (state : CurrentState) (run : Run) : Prop :=
  match run.phase with
  | .setup _ | .loadingState => run.files = []
  | .exited _ _ | .killed => run.files = [] ∨ run.state = some state
  | _ => run.state = some state

theorem Informed.known {state : CurrentState} {run : Run} (informed : Informed state run) :
    run.files = [] ∨ run.state = some state := by
  unfold Informed at informed
  split at informed
  next => exact .inl informed
  next => exact .inl informed
  next => exact informed
  next => exact informed
  next => exact .inr informed

theorem informed_start {plan : RunPlan} (connected : plan.mode.isConnected = true)
    (state : CurrentState) : Informed state (Run.start plan) := by
  simp [Informed, Run.start, connected]

theorem PrologueStep.informed {process next : Process} {action : PrologueAction}
    {state : CurrentState} (informed : Informed state process.run)
    (loaded : process.run.phase = .loadingState →
      loadCurrentState process.world.catalog process.run.plan.sourceId = state)
    (stepped : PrologueStep process action next) : Informed state next.run := by
  have known := informed.known
  cases stepped with
  | @proceed stage phase =>
      simp only [Informed, phase] at informed
      cases stage <;> exact informed
  | failed => exact known
  | loadState phase => exact congrArg some (loaded phase)
  | report phase =>
      simp only [Informed, phase] at informed
      simp only [Process.report]
      split <;> exact informed
  | closeFailed => exact known
  | @collected files phase =>
      simp only [Informed, phase] at informed
      simp only [Process.collected]
      split
      · exact .inr informed
      · cases process.run.plan.mode.writes <;> exact informed
  | startFailed => exact known
  | list phase | load phase | loadFailed phase | count phase | closed phase | reconciled phase
  | started phase =>
      simp only [Informed, phase] at informed
      exact informed

theorem Step.informed {deployment : Deployment} {process next : Process} {action : ProcessAction}
    {state : CurrentState} (informed : Informed state process.run)
    (loaded : process.run.phase = .loadingState →
      loadCurrentState process.world.catalog process.run.plan.sourceId = state)
    (stepped : Step deployment process action next) : Informed state next.run := by
  cases stepped with
  | prologue taken => exact taken.informed informed loaded
  | ingest taken =>
      cases taken with
      | pipeline phase | worker phase =>
          simp only [Informed, phase] at informed
          simpa only [Informed, setPipe, phase] using informed
      | commit phase committing recorded moved =>
          simp only [Informed, phase] at informed
          cases moved <;> simpa only [Informed, withCall, setPipe, phase] using informed
  | epilogue taken =>
      cases taken with
      | concludePreview => exact informed.known
      | recorded phase | recordFailed phase =>
          simp only [Informed, phase] at informed
          simp only [afterRecord]
          split
          · exact informed
          · exact .inr informed
      | exit => exact informed.known
      | conclude phase | supersede phase | supersedeFailed phase =>
          simp only [Informed, phase] at informed
          exact informed
  | kill => exact informed.known
  | land => exact informed
  | lose => exact informed
  | edit => exact informed

end Process

end AntiEntropator.Ingest

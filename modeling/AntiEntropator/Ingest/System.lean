import AntiEntropator.Ingest.Run.Chronicle

/-!
# Any number of runs

Runs of one or several sources over one world, interleaved step by step.  What
a deployment has to promise is a restriction of this machine: that a source has
one writer at a time.
-/

namespace AntiEntropator.Ingest

structure System where
  world : World
  runs : List Run

inductive SystemAction where
  /-- Somebody invokes ingest. -/
  | begin (plan : RunPlan)
  | act (index : Nat) (action : ProcessAction)

namespace System

def step (deployment : Deployment) (system : System) : SystemAction → Option System
  | .begin plan => some { system with runs := system.runs ++ [Run.start plan] }
  | .act index action =>
      match system.runs[index]? with
      | some run =>
          (Process.step deployment ⟨system.world, run⟩ action).map fun process =>
            ⟨process.world, system.runs.set index process.run⟩
      | none => none

def machine (deployment : Deployment) : GuardedMachine System SystemAction where
  step := step deployment

def view {Seen : Type} (seen : Process → ProcessAction → List Seen) (system : System) :
    SystemAction → List Seen
  | .begin _ => []
  | .act index action =>
      match system.runs[index]? with
      | some run => seen ⟨system.world, run⟩ action
      | none => []

/-- The process is gone and so is its last request. -/
def quiesced (run : Run) : Bool :=
  (match run.phase with
    | .exited _ _ | .killed => true
    | _ => false) &&
  (match run.request with
    | some ⟨_, .inFlight⟩ => false
    | _ => true)

/-- One writer at a time per source, and run ids are new. -/
def serial (system : System) : SystemAction → Bool
  | .begin plan =>
      (system.world.journals.lookup plan.runId).isNone ∧
        ∀ run ∈ system.runs, run.plan.runId ≠ plan.runId ∧
          (run.plan.sourceId = plan.sourceId → run.plan.mode.writes = true →
            plan.mode.writes = true → quiesced run = true)
  | .act _ _ => true

def serialMachine (deployment : Deployment) : GuardedMachine System SystemAction :=
  (machine deployment).restrict serial

/-! ## Steps -/

inductive Step (deployment : Deployment) (system : System) : SystemAction → System → Prop where
  | begin {plan} :
      Step deployment system (.begin plan) { system with runs := system.runs ++ [Run.start plan] }
  | act {index run action process} :
      system.runs[index]? = some run →
      Process.Step deployment ⟨system.world, run⟩ action process →
      Step deployment system (.act index action)
        ⟨process.world, system.runs.set index process.run⟩

theorem Step.of_step {deployment : Deployment} {system next : System} {action : SystemAction}
    (stepped : system.step deployment action = some next) :
    Step deployment system action next := by
  cases action with
  | begin plan =>
      cases stepped
      exact .begin
  | act index action =>
      simp only [step] at stepped
      split at stepped
      next run found =>
        obtain ⟨process, taken, rfl⟩ := Option.map_eq_some_iff.mp stepped
        exact .act found (.of_step taken)
      next => cases stepped

/-! ## Invariants of each run -/

/-- What holds of a run whatever other runs do. -/
structure Sound (deployment : Deployment) (run : Run) : Prop where
  fresh : Process.Unrecorded run.phase → run.Fresh
  reached : run.PipelineReached
  built : ∃ times, run.Built deployment times
  chronicled : ∃ landed, Process.Chronicled run landed

theorem sound_start (deployment : Deployment) (plan : RunPlan) :
    Sound deployment (Run.start plan) where
  fresh := fun _ => Run.fresh_start plan
  reached := Run.pipelineReached_start plan
  built := ⟨[], (Run.fresh_start plan).carries⟩
  chronicled := ⟨0, rfl, rfl⟩

theorem Sound.step {deployment : Deployment} {process next : Process} {action : ProcessAction}
    (sound : Sound deployment process.run)
    (stepped : Process.Step deployment process action next) : Sound deployment next.run := by
  obtain ⟨times, built⟩ := sound.built
  obtain ⟨landed, chronicled⟩ := sound.chronicled
  constructor
  · exact stepped.fresh sound.fresh
  · exact stepped.pipelineReached sound.reached
  · exact ⟨_, stepped.built sound.fresh built⟩
  · exact ⟨_, stepped.chronicled sound.fresh sound.reached built.call chronicled⟩

theorem forall_runs_of_step {deployment : Deployment} {system next : System}
    {action : SystemAction} {Good : Run → Prop} (started : ∀ plan, Good (Run.start plan))
    (kept : ∀ run inner process, run ∈ system.runs →
      Process.Step deployment ⟨system.world, run⟩ inner process → Good process.run)
    (good : ∀ run ∈ system.runs, Good run) (stepped : Step deployment system action next) :
    ∀ run ∈ next.runs, Good run := by
  intro run member
  cases stepped with
  | begin =>
      rcases List.mem_append.mp member with old | new
      · exact good run old
      · rw [List.mem_singleton.mp new]
        exact started _
  | act found taken =>
      rcases List.mem_or_eq_of_mem_set member with old | rfl
      · exact good run old
      · exact kept _ _ _ (List.mem_of_getElem? found) taken

theorem sound_of_exec {deployment : Deployment} {world : World} {actions : List SystemAction}
    {final : System} (exec : (machine deployment).exec ⟨world, []⟩ actions = some final) :
    ∀ run ∈ final.runs, Sound deployment run := by
  refine (machine deployment).exec_invariant
    (fun system => ∀ run ∈ system.runs, Sound deployment run) ?_ ?_ exec
  · simp
  · intro system action next sound stepped
    apply forall_runs_of_step (sound_start deployment) _ sound (Step.of_step stepped)
    intro run inner process member taken
    exact (sound run member).step taken

theorem begun_of_exec {deployment : Deployment} {world : World} {actions : List SystemAction}
    {final : System} (exec : (machine deployment).exec ⟨world, []⟩ actions = some final) :
    ∀ run ∈ final.runs, .begin run.plan ∈ actions := by
  refine (machine deployment).exec_induction
    (motive := fun actions (system : System) => ∀ run ∈ system.runs, .begin run.plan ∈ actions)
    ?_ ?_ exec
  · simp
  · intro actions middle action next before begun stepped run member
    cases Step.of_step stepped with
    | begin =>
        rcases List.mem_append.mp member with old | new
        · exact List.mem_append_left _ (begun run old)
        · rw [List.mem_singleton.mp new]
          exact List.mem_append_right _ (List.mem_singleton.mpr rfl)
    | @act index inner action process found taken =>
        apply List.mem_append_left
        rcases List.mem_or_eq_of_mem_set member with old | rfl
        · exact begun run old
        · rw [taken.plan_eq]
          exact begun inner (List.mem_of_getElem? found)

def solo (plan : RunPlan) (actions : List ProcessAction) : List SystemAction :=
  .begin plan :: actions.map (.act 0)

end System

end AntiEntropator.Ingest

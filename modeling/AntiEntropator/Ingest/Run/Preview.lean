import AntiEntropator.Ingest.Pipeline.Accounting
import AntiEntropator.Ingest.Run.Honesty
import AntiEntropator.Ingest.Run.Rows

/-!
# Previews

A run that does not write never enters a phase, a worker state or a request
that could.  An offline preview does not even look at what it must not change:
its steps are the same over any store, journals and catalog.
-/

namespace AntiEntropator.Ingest

namespace FileTask

def Storeless (task : FileTask) : Prop := ∀ prepared call, task.phase ≠ .uploading prepared call

/-- Neither in an upload nor about to look at the store. -/
def Detached (task : FileTask) : Prop :=
  task.Storeless ∧ ∀ prepared, task.phase ≠ .verifying prepared

/-- The phases after an await that leaves the store alone. -/
def Local (phase : FilePhase) : Prop :=
  match phase with
  | .verifying _ | .uploading _ _ => False
  | _ => True

theorem local_identify (ctx : FileContext) (info : FileInfo) : Local (identify ctx info) := by
  unfold identify
  simp only
  split
  · trivial
  · split <;> trivial

theorem local_scanned (ctx : FileContext) (info : FileInfo) : Local (scanned ctx info) := by
  unfold scanned
  split
  · trivial
  · exact local_identify ctx info

theorem local_conclude (ctx : FileContext) (prepared : PreparedFile) (blob : BlobState) :
    Local (conclude ctx prepared blob) := by
  unfold conclude
  split
  · trivial
  · split <;> trivial

theorem detached_of_local {task : FileTask} (here : Local task.phase) : task.Detached := by
  refine ⟨fun prepared call uploading => ?_, fun prepared verifying => ?_⟩
  · rwa [uploading] at here
  · rwa [verifying] at here

section Steps

variable {deployment : Deployment} {ctx : FileContext} {files : SourceFiles}
  {store store' : ObjectStore} {task task' : FileTask} {action : FileAction}

theorem Storeless.step (storeless : task.Storeless) (preview : ctx.mode.writes = false)
    (stepped : task.step deployment ctx files store action = some (store', task')) :
    store' = store ∧ task'.Storeless := by
  cases Step.of_step stepped with
  | scan => exact ⟨rfl, (detached_of_local (local_scanned _ _)).1⟩
  | scanHashed => exact ⟨rfl, (detached_of_local (local_identify _ _)).1⟩
  | scanHashFailed => exact ⟨rfl, (detached_of_local (local_identify _ _)).1⟩
  | found => exact ⟨rfl, (detached_of_local (local_conclude _ _ _)).1⟩
  | missing verifying verdict writes => simp [preview] at writes
  | missingPreview => exact ⟨rfl, (detached_of_local (local_conclude _ _ _)).1⟩
  | upload uploading => exact (storeless _ _ uploading).elim
  | uploaded uploading => exact (storeless _ _ uploading).elim
  | _ => exact ⟨rfl, fun prepared call => by simp⟩

theorem Detached.step (detached : task.Detached) (offline : ctx.operator = false)
    (stepped : task.step deployment ctx files store action = some (store', task')) :
    task'.Detached ∧
      ∀ other, task.step deployment ctx files other action = some (other, task') := by
  constructor
  · cases Step.of_step stepped with
    | scan => exact detached_of_local (local_scanned _ _)
    | scanHashed => exact detached_of_local (local_identify _ _)
    | scanHashFailed => exact detached_of_local (local_identify _ _)
    | observe observing operator => simp [offline] at operator
    | found verifying => exact (detached.2 _ verifying).elim
    | missing verifying => exact (detached.2 _ verifying).elim
    | missingPreview verifying => exact (detached.2 _ verifying).elim
    | upload uploading => exact (detached.1 _ _ uploading).elim
    | uploaded uploading => exact (detached.1 _ _ uploading).elim
    | _ => exact detached_of_local trivial
  · intro other
    cases action with
    | scan details =>
        simp only [FileTask.step] at stepped ⊢
        split at stepped
        next contents scanning found => cases stepped; rfl
        next => cases stepped
    | scanFailed text =>
        simp only [FileTask.step] at stepped ⊢
        split at stepped
        next scanning => cases stepped; rfl
        next => cases stepped
    | read n =>
        simp only [FileTask.step] at stepped ⊢
        split at stepped
        next bounds =>
          rw [if_pos bounds]
          split at stepped
          next info read contents hashing found =>
            split at stepped <;> cases stepped <;> simp_all
          next info relativePath read contents hashing found =>
            split at stepped <;> cases stepped <;> simp_all
          next => cases stepped
        next => cases stepped
    | readFailed text =>
        simp only [FileTask.step] at stepped ⊢
        split at stepped
        next hashing => cases stepped; rfl
        next hashing => cases stepped; rfl
        next => cases stepped
    | hashPanicked text =>
        simp only [FileTask.step] at stepped ⊢
        split at stepped
        next scanning found => cases stepped; rfl
        next hashing => cases stepped; rfl
        next hashing => cases stepped; rfl
        next => cases stepped
    | observe now =>
        simp only [FileTask.step] at stepped ⊢
        split at stepped
        next observing => cases stepped; rfl
        next => cases stepped
    | verify =>
        simp only [FileTask.step] at stepped
        split at stepped
        next prepared verifying => exact (detached.2 _ verifying).elim
        next => cases stepped
    | verifyFailed text =>
        simp only [FileTask.step] at stepped ⊢
        split at stepped
        next prepared verifying => exact (detached.2 _ verifying).elim
        next => cases stepped
    | upload inner =>
        simp only [FileTask.step] at stepped
        split at stepped
        next prepared call uploading => exact (detached.1 _ _ uploading).elim
        next => cases stepped
    | stamp now =>
        simp only [FileTask.step] at stepped ⊢
        split at stepped
        next stamping => cases stepped; rfl
        next => cases stepped

end Steps

end FileTask

/-! ## Nothing is written -/

def Process.Journaling : RunPhase → Prop
  | .reconciling _ _ | .closing _ _ _ | .starting | .recording _ | .superseding _ _ => True
  | _ => False

/-- A run without committer, journal or request, whose workers only read. -/
structure Run.Previews (run : Run) : Prop where
  phase : ¬ Process.Journaling run.phase
  journal : run.journal = none
  request : run.request = none
  idle : Pipeline.PreviewIdle run.plan.parts run.pipe
  tasks : run.Judged (fun _ task => task.Storeless) fun _ _ => True

namespace Process

variable {deployment : Deployment}

theorem committer_of_preview {plan : RunPlan} (preview : plan.mode.writes = false) :
    plan.parts.committer = none := by
  simp [RunPlan.parts, preview]

theorem previews_start (plan : RunPlan) : (Run.start plan).Previews where
  phase := by
    simp only [Run.start]
    split <;> exact id
  journal := rfl
  request := rfl
  idle := by simp +contextual [Pipeline.PreviewIdle, Run.start, Pipeline.start]
  tasks := (Run.fresh_start plan).judged

/-- A step changes the world at most by an edit of a source file. -/
def EditedOnly (process next : Process) : Prop :=
  ∃ files, next.world = { process.world with files }

theorem PrologueStep.previews {process next : Process} {action : PrologueAction}
    (preview : process.run.plan.mode.writes = false) (fresh : process.run.Fresh)
    (previews : process.run.Previews) (stepped : PrologueStep process action next) :
    next.run.Previews ∧ EditedOnly process next := by
  have tasks : next.run.Judged (fun _ task => task.Storeless) fun _ _ => True :=
    stepped.judged fresh
  have unwritten : ∀ {phase}, process.run.phase = phase → ¬ Journaling phase :=
    fun same => same ▸ previews.phase
  cases stepped with
  | @proceed stage =>
      cases stage <;> exact ⟨{ previews with phase := id, tasks }, _, rfl⟩
  | report =>
      simp only [Process.report, preview, Bool.false_eq_true, if_false] at tasks ⊢
      exact ⟨{ previews with phase := id, tasks }, _, rfl⟩
  | count phase => exact (unwritten phase trivial).elim
  | closed phase => exact (unwritten phase trivial).elim
  | closeFailed text phase => exact (unwritten phase trivial).elim
  | reconciled phase => exact (unwritten phase trivial).elim
  | @collected files phase =>
      by_cases none : files = []
      · simp only [Process.collected, none, if_true] at tasks ⊢
        exact ⟨{ previews with phase := id, tasks }, _, rfl⟩
      · simp only [Process.collected, none, if_false, preview, Bool.false_eq_true] at tasks ⊢
        refine ⟨⟨id, previews.journal, previews.request, ?_, tasks⟩, _, rfl⟩
        simp +contextual [Pipeline.PreviewIdle, Pipeline.start]
  | started phase => exact (unwritten phase trivial).elim
  | startFailed text phase => exact (unwritten phase trivial).elim
  | _ => exact ⟨{ previews with phase := id, tasks }, _, rfl⟩

theorem Step.previews {process next : Process} {action : ProcessAction}
    (preview : process.run.plan.mode.writes = false)
    (fresh : Unrecorded process.run.phase → process.run.Fresh) (previews : process.run.Previews)
    (stepped : Step deployment process action next) :
    next.run.Previews ∧ EditedOnly process next := by
  have returned := (previews.idle (committer_of_preview preview)).1
  have tasks := stepped.judged fresh previews.tasks (fun _ _ same => same) (fun _ _ same => same)
    (fun path _ prepared call => by simp) (fun _ _ _ _ _ => trivial)
    (fun index inner path task blobs task' _ _ storeless moved _ =>
      (storeless.step preview moved).2)
  cases stepped with
  | prologue taken => exact taken.previews preview (fresh taken.unrecorded) previews
  | ingest taken =>
      cases taken with
      | pipeline phase allowed moved =>
          exact ⟨⟨by simp [setPipe, phase, Journaling], previews.journal, previews.request,
            previews.idle.step moved, tasks⟩, _, rfl⟩
      | worker phase found moved =>
          have storeless := previews.tasks.tasks.running _ _ (List.mem_of_getElem? found)
          refine ⟨⟨by simp [setPipe, phase, Journaling], previews.journal, previews.request,
            previews.idle, tasks⟩, process.world.files, ?_⟩
          simp only [(storeless.step preview moved).1]
      | commit phase committing => simp [returned] at committing
  | epilogue taken =>
      cases taken with
      | conclude phase reported recorded => simp [previews.journal] at recorded
      | concludePreview => exact ⟨{ previews with phase := id, tasks }, _, rfl⟩
      | recorded phase => exact (previews.phase (by rw [phase]; trivial)).elim
      | recordFailed phase => exact (previews.phase (by rw [phase]; trivial)).elim
      | supersede phase => exact (previews.phase (by rw [phase]; trivial)).elim
      | supersedeFailed phase => exact (previews.phase (by rw [phase]; trivial)).elim
      | exit phase => exact (previews.phase (by rw [phase]; trivial)).elim
  | kill => exact ⟨{ previews with phase := id, tasks }, _, rfl⟩
  | land flying => simp [previews.request] at flying
  | lose flying => simp [previews.request] at flying
  | edit => exact ⟨previews, _, rfl⟩

theorem previews_of_exec {plan : RunPlan} {world : World} {actions : List ProcessAction}
    {final : Process} (preview : plan.mode.writes = false)
    (exec : (machine deployment).exec ⟨world, Run.start plan⟩ actions = some final) :
    final.run.Previews ∧ EditedOnly ⟨world, Run.start plan⟩ final := by
  refine (machine deployment).exec_induction (motive := fun _ (process : Process) =>
    process.run.Previews ∧ EditedOnly ⟨world, Run.start plan⟩ process)
    ⟨previews_start plan, world.files, rfl⟩ ?_ exec
  rintro actions middle action next before ⟨previews, files, same⟩ stepped
  have mode : middle.run.plan.mode.writes = false := by rw [plan_of_exec before, preview]
  obtain ⟨later, edited, changed⟩ :=
    (Step.of_step stepped).previews mode (fresh_of_exec before) previews
  exact ⟨later, edited, by rw [changed, same]⟩

end Process

/-! ## An offline preview looks at nothing -/

def Process.Offline : RunPhase → Prop
  | .collecting | .ingesting | .exited _ _ | .killed => True
  | _ => False

/-- A preview without operator, whose workers do not look at the store. -/
structure Run.Detached (run : Run) : Prop extends run.Previews where
  operator : run.context.operator = false
  offline : Process.Offline run.phase
  detached : run.Judged (fun _ task => task.Detached) fun _ _ => True

/-- The same source files over other stores. -/
def World.restock (world : World) (blobs : ObjectStore) (journals : JournalStore)
    (catalog : List Lakehouse.CatalogRow) : World :=
  { world with blobs, journals, catalog }

namespace Process

variable {deployment : Deployment} {process next : Process} {action : ProcessAction}

def restock (process : Process) (blobs : ObjectStore) (journals : JournalStore)
    (catalog : List Lakehouse.CatalogRow) : Process :=
  { process with world := process.world.restock blobs journals catalog }

theorem detached_start {plan : RunPlan} (offline : plan.mode = .dryRunOffline) :
    (Run.start plan).Detached where
  toPreviews := previews_start plan
  operator := by simp [Run.context, Run.start, offline, IngestMode.isConnected]
  offline := by simp [Run.start, offline, IngestMode.isConnected, Offline]
  detached := (Run.fresh_start plan).judged

theorem Step.detached (preview : process.run.plan.mode.writes = false)
    (fresh : Unrecorded process.run.phase → process.run.Fresh) (detached : process.run.Detached)
    (stepped : Step deployment process action next) : next.run.Detached := by
  have tasks := stepped.judged fresh detached.detached (fun _ _ same => same)
    (fun _ _ same => same) (fun path _ => FileTask.detached_of_local trivial)
    (fun _ _ _ _ _ => trivial)
    (fun index inner path task blobs task' _ _ detached' moved _ =>
      (detached'.step detached.operator moved).1)
  have operator : next.run.context.operator = false := by
    have same := detached.operator
    simp only [Run.context, stepped.plan_eq] at same ⊢
    exact same
  refine ⟨(stepped.previews preview fresh detached.toPreviews).1, operator, ?_, tasks⟩
  have phase := detached.offline
  cases stepped with
  | prologue taken =>
      cases taken with
      | failed => trivial
      | @collected files collecting =>
          simp only [Process.collected, preview, Bool.false_eq_true, if_false]
          split <;> trivial
      | closeFailed => trivial
      | startFailed => trivial
      | started => trivial
      | proceed here | loadState here | list here | load here | loadFailed here | report here
      | count here | closed here | reconciled here =>
          rw [here] at phase
          exact phase.elim
  | ingest taken => rw [taken.phase_eq.2]; trivial
  | epilogue taken =>
      cases taken with
      | conclude here reported recorded => simp [detached.journal] at recorded
      | concludePreview => trivial
      | recorded here | recordFailed here | supersede here | supersedeFailed here | exit here =>
          rw [here] at phase
          exact phase.elim
  | kill => trivial
  | land => exact phase
  | lose => exact phase
  | edit => exact phase

theorem step_restock (detached : process.run.Detached)
    (preview : process.run.plan.mode.writes = false)
    (stepped : process.step deployment action = some next) (blobs : ObjectStore)
    (journals : JournalStore) (catalog : List Lakehouse.CatalogRow) :
    (process.restock blobs journals catalog).step deployment action =
      some (next.restock blobs journals catalog) := by
  have returned := (detached.idle (committer_of_preview preview)).1
  have phase := detached.offline
  cases action with
  | prologue action =>
      cases here : process.run.phase with
      | collecting =>
          cases action with
          | collect files =>
              simp only [step, prologue, here, Option.ite_none_right_eq_some] at stepped
              obtain ⟨candidates, taken⟩ := stepped
              cases taken
              simp only [step, prologue, restock, here]
              refine (if_pos candidates).trans (congrArg some ?_)
              simp only [Process.collected]
              split <;> rfl
          | collectFailed error =>
              simp only [step, prologue, here] at stepped
              cases stepped
              simp only [step, prologue, restock, here]
              rfl
          | _ => simp [step, prologue, here] at stepped
      | ingesting | exited | killed => simp [step, prologue, here] at stepped
      | _ =>
          rw [here] at phase
          exact phase.elim
  | ingest action =>
      cases IngestStep.of_step stepped with
      | @pipeline inner pipe ingesting allowed moved =>
          simp only [step, ingest, restock, ingesting, allowed, moved, if_true, Option.map_some]
          rfl
      | @worker index path task inner blobs' task' ingesting found moved =>
          have here := detached.detached.tasks.running _ _ (List.mem_of_getElem? found)
          have same := (FileTask.Detached.step here detached.operator moved).2 blobs
          simp only [step, ingest, restock, ingesting, found, World.restock]
          rw [show Run.context process.run = process.run.context from rfl] at same
          simp only [same, Option.map_some]
          rfl
      | commit ingesting committing => simp [returned] at committing
  | epilogue action =>
      cases EpilogueStep.of_step stepped with
      | conclude ingesting reported recorded => simp [detached.journal] at recorded
      | concludePreview ingesting reported none =>
          simp only [step, epilogue, restock, ingesting, reported, none]
          rfl
      | recorded here | recordFailed here | supersede here | supersedeFailed here | exit here =>
          rw [here] at phase
          exact phase.elim
  | kill =>
      simp only [step, Option.ite_none_right_eq_some] at stepped ⊢
      obtain ⟨running, taken⟩ := stepped
      cases taken
      exact ⟨running, rfl⟩
  | land => simp [step, detached.request] at stepped
  | lose => simp [step, detached.request] at stepped
  | edit path contents =>
      cases stepped
      rfl

theorem exec_restock {plan : RunPlan} (offline : plan.mode = .dryRunOffline) {world : World}
    {actions : List ProcessAction} {final : Process}
    (exec : (machine deployment).exec ⟨world, Run.start plan⟩ actions = some final)
    (blobs : ObjectStore) (journals : JournalStore) (catalog : List Lakehouse.CatalogRow) :
    final.run.Detached ∧ (machine deployment).exec
      ⟨world.restock blobs journals catalog, Run.start plan⟩ actions =
        some (final.restock blobs journals catalog) := by
  have preview : plan.mode.writes = false := by simp [offline, IngestMode.writes]
  refine (machine deployment).exec_induction (motive := fun actions (process : Process) =>
    process.run.Detached ∧ (machine deployment).exec
      ⟨world.restock blobs journals catalog, Run.start plan⟩ actions =
        some (process.restock blobs journals catalog)) ⟨detached_start offline, rfl⟩ ?_ exec
  rintro actions middle action next before ⟨detached, same⟩ stepped
  have mode : middle.run.plan.mode.writes = false := by rw [plan_of_exec before, preview]
  refine ⟨(Step.of_step stepped).detached mode (fresh_of_exec before) detached, ?_⟩
  exact (machine deployment).exec_snoc_eq_some_iff.mpr
    ⟨_, same, step_restock detached mode stepped blobs journals catalog⟩

/-- A preview leaves store, catalog and journals as it found them, whatever
else happens; and an offline one runs the same over any of them. -/
theorem previews_are_read_only {offline : Bool} {plan : RunPlan} {world : World}
    {actions : List ProcessAction} {final : Process}
    (preview : plan.mode = IngestMode.fromFlags true offline)
    (exec : (machine deployment).exec ⟨world, Run.start plan⟩ actions = some final) :
    (final.world.blobs = world.blobs ∧ final.world.catalog = world.catalog ∧
        final.world.journals = world.journals) ∧
      (offline = true → ∀ blobs journals catalog,
        (machine deployment).exec ⟨world.restock blobs journals catalog, Run.start plan⟩ actions =
          some (final.restock blobs journals catalog)) := by
  have mode : plan.mode.writes = false := by
    rw [preview]
    cases offline <;> rfl
  obtain ⟨-, files, same⟩ := previews_of_exec mode exec
  refine ⟨by simp [same], ?_⟩
  rintro rfl blobs journals catalog
  exact (exec_restock preview exec blobs journals catalog).2

/-- The catalog has one of the files, whose blob is gone, and a run was interrupted. -/
def damagedWorld : World :=
  { interruptedWorld with catalog := Lakehouse.filesToBatch [sampleRow 3 "a" 500] }

def connectedSchedule (runId : Uuid) (now : DateTime) : List ProcessAction :=
  ([.proceed, .proceed, .proceed, .proceed, .loadState, .list, .load, .report,
    .collect [samplePath "a", samplePath "b"]] : List PrologueAction).map .prologue ++
    ([.spawn, .spawn, .await].map fun action => .ingest (.pipeline action)) ++
    hashSchedule 0 now ++ hashSchedule 1 now ++
    ([.finish 0 (.result (.ok (.unchanged .uploaded))), .join 0, .await,
      .finish 0 (.result (.ok (.observed { sampleRow runId "b" now with ingestedAt := none }
        .uploaded))), .join 0, .await, .drain].map fun action => .ingest (.pipeline action)) ++
    [.epilogue (.conclude now)]

theorem previews_are_read_only_connected : ∃ final,
    (machine sampleDeployment).exec ⟨damagedWorld,
        Run.start { samplePlan 2 with mode := IngestMode.fromFlags true false }⟩
        (connectedSchedule 2 1000000) = some final ∧
      final.run.openRuns.map RunJournal.runId = [1] ∧
      final.run.phase.exit?.map Prod.snd = some (.ok ()) ∧
      (final.run.pipe.counts.observed, final.run.pipe.counts.unchanged,
        final.run.pipe.counts.uploaded) = (1, 1, 2) ∧
      final.world.blobs = damagedWorld.blobs ∧ final.world.catalog = damagedWorld.catalog ∧
      final.world.journals = damagedWorld.journals := by
  obtain ⟨final, exec, shown⟩ := Option.map_eq_some_iff.mp (show
    ((machine sampleDeployment).exec ⟨damagedWorld,
        Run.start { samplePlan 2 with mode := IngestMode.fromFlags true false }⟩
        (connectedSchedule 2 1000000)).map (fun final =>
          (final.run.openRuns.map RunJournal.runId, final.run.phase.exit?.map Prod.snd,
            final.run.pipe.counts.observed, final.run.pipe.counts.unchanged,
            final.run.pipe.counts.uploaded)) =
      some ([1], some (.ok ()), 1, 1, 2) by decide +kernel)
  obtain ⟨found, ended⟩ := Prod.mk.injEq .. ▸ shown
  obtain ⟨ended, counts⟩ := Prod.mk.injEq .. ▸ ended
  obtain ⟨same, -⟩ :=
    previews_are_read_only (show _ = IngestMode.fromFlags true false from rfl) exec
  exact ⟨final, exec, found, ended, counts, same⟩

end Process

end AntiEntropator.Ingest

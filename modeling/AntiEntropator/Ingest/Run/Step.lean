import AntiEntropator.Ingest.ProcessFile.Step
import AntiEntropator.Ingest.Run

/-!
# What a process step can do

The effects of a run's actions, group by group.  Facts about runs are proved by
cases on these, as for the pipeline and the workers.
-/

namespace AntiEntropator.Ingest

open Lakehouse

/-- The failures that end a run early and write nothing. -/
def PrologueAction.Fails : PrologueAction → Prop
  | .setupFailed _ | .loadStateFailed _ | .listFailed _ | .countFailed _ | .collectFailed _ => True
  | _ => False

namespace Process

/-! ## Prologue -/

/-- The phases before the candidates are known. -/
def Early : RunPhase → Prop
  | .setup _ | .loadingState | .listing | .loading _ _ | .reconciling _ _ | .closing _ _ _
  | .collecting => True
  | _ => False

inductive PrologueStep (process : Process) : PrologueAction → Process → Prop where
  | proceed {stage} :
      process.run.phase = .setup stage →
      PrologueStep process .proceed (process.proceed stage)
  | failed {action : PrologueAction} (error : Error) :
      Early process.run.phase → action.Fails → PrologueStep process action (process.fail error)
  | loadState :
      process.run.phase = .loadingState →
      PrologueStep process .loadState { process with run := { process.run with
        state := some (loadCurrentState process.world.catalog process.run.plan.sourceId)
        phase := .listing } }
  | list :
      process.run.phase = .listing →
      PrologueStep process .list (process.setPhase (.loading process.world.journals.keys []))
  | load {id ids loaded journal} :
      process.run.phase = .loading (id :: ids) loaded →
      process.world.journals.lookup id = some journal →
      PrologueStep process .load (process.setPhase (.loading ids (loaded ++ [journal])))
  | loadFailed {id ids loaded} :
      process.run.phase = .loading (id :: ids) loaded →
      PrologueStep process .loadFailed (process.setPhase (.loading ids loaded))
  | report {loaded} :
      process.run.phase = .loading [] loaded →
      PrologueStep process .report (process.report loaded)
  | count {journal remaining done now} :
      process.run.phase = .reconciling (journal :: remaining) done →
      PrologueStep process (.count now) (process.setPhase (.closing
        (journal.push (.reconciled (countRowsForRun process.world.catalog
          process.run.plan.sourceId journal.runId)) now) remaining done))
  | closed {journal remaining done} :
      process.run.phase = .closing journal remaining done →
      PrologueStep process .closed
        { (process.setPhase (.reconciling remaining (done ++ [journal]))) with
          world := process.world.save journal }
  | closeFailed {journal remaining done landed error} (text : String) :
      process.run.phase = .closing journal remaining done →
      PrologueStep process (.closeFailed landed error)
        { (process.fail (error.context text)) with world := process.world.saveIf landed journal }
  | reconciled {done} :
      process.run.phase = .reconciling [] done →
      PrologueStep process .reconciled
        { process with run := { process.run with openRuns := done, phase := .collecting } }
  | collected {files} :
      process.run.phase = .collecting →
      (∀ path ∈ files, PathBuf.Below process.run.plan.root path) → files.Nodup →
      PrologueStep process (.collect files) (process.collected files)
  | started {now} :
      process.run.phase = .starting →
      PrologueStep process (.started now)
        { world := process.world.save (newJournal process.run now)
          run := { process.run with
            journal := some (newJournal process.run now), phase := .ingesting } }
  | startFailed {now landed error} (text : String) :
      process.run.phase = .starting →
      PrologueStep process (.startFailed now landed error)
        { (process.fail (error.context text)) with
          world := process.world.saveIf landed (newJournal process.run now) }

theorem PrologueStep.of_step {process next : Process} {action : PrologueAction}
    (stepped : process.prologue action = some next) : PrologueStep process action next := by
  unfold prologue at stepped
  split at stepped
  next phase => cases stepped; exact .proceed phase
  next phase => cases stepped; exact .failed _ (by rw [phase]; trivial) trivial
  next phase => cases stepped; exact .loadState phase
  next phase => cases stepped; exact .failed _ (by rw [phase]; trivial) trivial
  next phase => cases stepped; exact .list phase
  next phase => cases stepped; exact .failed _ (by rw [phase]; trivial) trivial
  next phase =>
    split at stepped
    next journal found => cases stepped; exact .load phase found
    next => cases stepped
  next phase => cases stepped; exact .loadFailed phase
  next phase => cases stepped; exact .report phase
  next phase => cases stepped; exact .count phase
  next phase => cases stepped; exact .failed _ (by rw [phase]; trivial) trivial
  next phase => cases stepped; exact .closed phase
  next phase => cases stepped; exact .closeFailed _ phase
  next phase => cases stepped; exact .reconciled phase
  next phase =>
    split at stepped
    next candidates => cases stepped; exact .collected phase candidates.1 candidates.2
    next => cases stepped
  next phase => cases stepped; exact .failed _ (by rw [phase]; trivial) trivial
  next phase => cases stepped; exact .started phase
  next phase => cases stepped; exact .startFailed _ phase
  next => cases stepped

/-! ## Ingesting -/

def withCall (process : Process) (rows : List FileInfo) (call : CommitCall) (tail : Bool) :
    Process :=
  process.setPipe { process.run.pipe with writer := .committing rows call tail }

inductive CommitStep (process : Process) (rows : List FileInfo) (call : CommitCall) (tail : Bool)
    (journal : RunJournal) : CommitAction → Process → Prop where
  | enter {now} :
      call.phase = .entered →
      CommitStep process rows call tail journal (.enter now)
        { (process.withCall rows
            { call with phase := .savingCommitting (process.run.batches + 1) } tail) with
          run := { (process.withCall rows
              { call with phase := .savingCommitting (process.run.batches + 1) } tail).run with
            batches := process.run.batches + 1
            journal := some (journal.push (.committing (process.run.batches + 1)) now) } }
  | savedCommitting {batch} :
      call.phase = .savingCommitting batch →
      CommitStep process rows call tail journal .saved
        { (process.withCall rows { call with phase := .committing batch } tail) with
          world := process.world.save journal }
  | committingUnsaved {batch landed} :
      call.phase = .savingCommitting batch →
      CommitStep process rows call tail journal (.saveFailed landed)
        { (process.withCall rows { call with phase := .committing batch } tail) with
          world := process.world.saveIf landed journal }
  | innerFailed {batch error} :
      call.phase = .committing batch →
      CommitStep process rows call tail journal (.innerFailed error)
        (process.withCall rows { call with phase := .returned (.error error) } tail)
  | request {batch} :
      call.phase = .committing batch →
      CommitStep process rows call tail journal .request
        { (process.withCall rows { call with phase := .requested batch } tail) with
          run := { (process.withCall rows { call with phase := .requested batch } tail).run with
            request := some ⟨filesToBatch call.rows, .inFlight⟩ } }
  | acknowledged {batch sent now} :
      call.phase = .requested batch → process.run.request = some ⟨sent, .applied⟩ →
      CommitStep process rows call tail journal (.acknowledged now)
        { (process.withCall rows { call with phase := .savingCommitted } tail) with
          run := { (process.withCall rows { call with phase := .savingCommitted } tail).run with
            journal := some (journal.push (.batchCommitted batch call.rows.length) now) } }
  | requestFailed {batch error} :
      call.phase = .requested batch →
      CommitStep process rows call tail journal (.requestFailed error)
        (process.withCall rows { call with phase := .returned (.error error) } tail)
  | savedCommitted :
      call.phase = .savingCommitted →
      CommitStep process rows call tail journal .saved
        { (process.withCall rows { call with phase := .returned (.ok ()) } tail) with
          world := process.world.save journal }
  | committedUnsaved {landed} :
      call.phase = .savingCommitted →
      CommitStep process rows call tail journal (.saveFailed landed)
        { (process.withCall rows { call with phase := .returned (.ok ()) } tail) with
          world := process.world.saveIf landed journal }

theorem CommitStep.of_step {process next : Process} {rows : List FileInfo} {call : CommitCall}
    {tail : Bool} {journal : RunJournal} {action : CommitAction}
    (committing : process.run.pipe.writer = .committing rows call tail)
    (stepped : process.commit call journal action = some next) :
    CommitStep process rows call tail journal action next := by
  have moved : ∀ changed, process.setCall changed = process.withCall rows changed tail := by
    intro changed
    simp [setCall, committing, withCall]
  simp only [commit, moved] at stepped
  split at stepped
  next phase => cases stepped; exact .enter phase
  next phase => cases stepped; exact .savedCommitting phase
  next phase => cases stepped; exact .committingUnsaved phase
  next phase => cases stepped; exact .innerFailed phase
  next phase => cases stepped; exact .request phase
  next phase =>
    split at stepped
    next sent applied => cases stepped; exact .acknowledged phase applied
    next => cases stepped
  next phase => cases stepped; exact .requestFailed phase
  next phase => cases stepped; exact .savedCommitted phase
  next phase => cases stepped; exact .committedUnsaved phase
  next => cases stepped

inductive IngestStep (deployment : Deployment) (process : Process) :
    IngestAction → Process → Prop where
  | pipeline {action pipe} :
      process.run.phase = .ingesting → allows process.run.pipe action = true →
      Pipeline.step process.run.plan.pipeline process.run.plan.parts process.run.pipe action =
        some pipe →
      IngestStep deployment process (.pipeline action) (process.setPipe pipe)
  | worker {index path task action blobs task'} :
      process.run.phase = .ingesting →
      process.run.pipe.set[index]? = some ⟨path, .running task⟩ →
      task.step deployment process.run.context process.world.files process.world.blobs action =
        some (blobs, task') →
      IngestStep deployment process (.worker index action)
        { (process.setPipe { process.run.pipe with
            set := process.run.pipe.set.set index ⟨path, .running task'⟩ }) with
          world := { process.world with blobs } }
  | commit {rows call tail journal action next} :
      process.run.phase = .ingesting →
      process.run.pipe.writer = .committing rows call tail → process.run.journal = some journal →
      CommitStep process rows call tail journal action next →
      IngestStep deployment process (.commit action) next

theorem IngestStep.of_step {deployment : Deployment} {process next : Process}
    {action : IngestAction} (stepped : process.ingest deployment action = some next) :
    IngestStep deployment process action next := by
  unfold ingest at stepped
  split at stepped
  next inner phase =>
    split at stepped
    next allowed =>
      obtain ⟨pipe, taken, rfl⟩ := Option.map_eq_some_iff.mp stepped
      exact .pipeline phase allowed taken
    next => cases stepped
  next index inner phase =>
    split at stepped
    next path task found =>
      obtain ⟨⟨blobs, task'⟩, taken, rfl⟩ := Option.map_eq_some_iff.mp stepped
      exact .worker phase found taken
    next => cases stepped
  next inner phase =>
    split at stepped
    next rows call tail journal committing recorded =>
      exact .commit phase committing recorded (.of_step committing stepped)
    next => cases stepped
  next => cases stepped

/-! ## Epilogue -/

/-- Where a run goes once its terminal entry was offered to the store. -/
def afterRecord (process : Process) (conclusion : Conclusion) : Process :=
  process.setPhase (if conclusion.terminal = .completed then
    .superseding process.run.openRuns conclusion
  else .exited (some conclusion) conclusion.result)

inductive EpilogueStep (process : Process) : EpilogueAction → Process → Prop where
  | conclude {report journal now} :
      process.run.phase = .ingesting → process.run.pipe.report? = some report →
      process.run.journal = some journal →
      EpilogueStep process (.conclude now) { process with run := { process.run with
        journal := some (journal.push (terminalState report) now)
        phase := .recording
          (Conclusion.build process.run.plan process.run.files.length report) } }
  | concludePreview {report now} :
      process.run.phase = .ingesting → process.run.pipe.report? = some report →
      process.run.journal = none →
      EpilogueStep process (.conclude now) (process.setPhase (.exited
        (some (Conclusion.build process.run.plan process.run.files.length report))
        (Conclusion.build process.run.plan process.run.files.length report).result))
  | recorded {conclusion journal} :
      process.run.phase = .recording conclusion → process.run.journal = some journal →
      EpilogueStep process .recorded
        { (process.afterRecord conclusion) with world := process.world.save journal }
  | recordFailed {conclusion journal landed} :
      process.run.phase = .recording conclusion → process.run.journal = some journal →
      EpilogueStep process (.recordFailed landed)
        { (process.afterRecord conclusion) with world := process.world.saveIf landed journal }
  | supersede {journal remaining conclusion now} :
      process.run.phase = .superseding (journal :: remaining) conclusion →
      EpilogueStep process (.supersede now)
        { (process.setPhase (.superseding remaining conclusion)) with
          world := process.world.save (journal.push (.supersededBy process.run.plan.runId) now) }
  | supersedeFailed {journal remaining conclusion now landed} :
      process.run.phase = .superseding (journal :: remaining) conclusion →
      EpilogueStep process (.supersedeFailed now landed)
        { (process.setPhase (.superseding remaining conclusion)) with
          world := process.world.saveIf landed
            (journal.push (.supersededBy process.run.plan.runId) now) }
  | exit {conclusion} :
      process.run.phase = .superseding [] conclusion →
      EpilogueStep process .exit
        (process.setPhase (.exited (some conclusion) conclusion.result))

theorem EpilogueStep.of_step {process next : Process} {action : EpilogueAction}
    (stepped : process.epilogue action = some next) : EpilogueStep process action next := by
  unfold epilogue at stepped
  split at stepped
  next now phase =>
    split at stepped
    next report reported =>
      simp only at stepped
      split at stepped
      next journal recorded => cases stepped; exact .conclude phase reported recorded
      next preview => cases stepped; exact .concludePreview phase reported preview
    next => cases stepped
  next conclusion phase =>
    split at stepped
    next journal recorded => cases stepped; exact .recorded phase recorded
    next => cases stepped
  next conclusion landed phase =>
    split at stepped
    next journal recorded => cases stepped; exact .recordFailed phase recorded
    next => cases stepped
  next phase => cases stepped; exact .supersede phase
  next phase => cases stepped; exact .supersedeFailed phase
  next phase => cases stepped; exact .exit phase
  next => cases stepped

/-! ## The whole process -/

inductive Step (deployment : Deployment) (process : Process) : ProcessAction → Process → Prop where
  | prologue {action next} :
      PrologueStep process action next → Step deployment process (.prologue action) next
  | ingest {action next} :
      IngestStep deployment process action next → Step deployment process (.ingest action) next
  | epilogue {action next} :
      EpilogueStep process action next → Step deployment process (.epilogue action) next
  | kill :
      process.alive = true → Step deployment process .kill (process.setPhase .killed)
  | land {rows} :
      process.run.request = some ⟨rows, .inFlight⟩ →
      Step deployment process .land
        { world := { process.world with catalog := process.world.catalog ++ rows }
          run := { process.run with request := some ⟨rows, .applied⟩ } }
  | lose {rows} :
      process.run.request = some ⟨rows, .inFlight⟩ →
      Step deployment process .lose { process with
        run := { process.run with request := some ⟨rows, .lost⟩ } }
  | edit {path contents} :
      Step deployment process (.edit path contents) { process with
        world := { process.world with
          files := Function.update process.world.files path contents } }

theorem Step.of_step {deployment : Deployment} {process next : Process} {action : ProcessAction}
    (stepped : process.step deployment action = some next) :
    Step deployment process action next := by
  cases action with
  | prologue action => exact .prologue (.of_step stepped)
  | ingest action => exact .ingest (.of_step stepped)
  | epilogue action => exact .epilogue (.of_step stepped)
  | kill =>
      simp only [step] at stepped
      split at stepped
      next running => cases stepped; exact .kill running
      next => cases stepped
  | land =>
      simp only [step] at stepped
      split at stepped
      next rows flying => cases stepped; exact .land flying
      next => cases stepped
  | lose =>
      simp only [step] at stepped
      split at stepped
      next rows flying => cases stepped; exact .lose flying
      next => cases stepped
  | edit path contents => cases stepped; exact .edit

/-! ## What a step leaves alone -/

/-- Besides its workers and the catalog, a run only writes journals. -/
def WritesJournals (process next : Process) : Prop :=
  ∃ journals, next.world = { process.world with journals }

theorem writesJournals_saveIf (process : Process) (landed : Bool) (journal : RunJournal) :
    ∃ journals, process.world.saveIf landed journal = { process.world with journals } := by
  cases landed <;> exact ⟨_, rfl⟩

theorem PrologueStep.writesJournals {process next : Process} {action : PrologueAction}
    (stepped : PrologueStep process action next) : WritesJournals process next := by
  cases stepped with
  | @proceed stage => cases stage <;> exact ⟨_, rfl⟩
  | report =>
      simp only [Process.report]
      split <;> exact ⟨_, rfl⟩
  | collected =>
      simp only [Process.collected]
      split <;> exact ⟨_, rfl⟩
  | closeFailed => exact writesJournals_saveIf process _ _
  | startFailed => exact writesJournals_saveIf process _ _
  | _ => exact ⟨_, rfl⟩

theorem CommitStep.writesJournals {process next : Process} {rows : List FileInfo}
    {call : CommitCall} {tail : Bool} {journal : RunJournal} {action : CommitAction}
    (stepped : CommitStep process rows call tail journal action next) :
    WritesJournals process next := by
  cases stepped with
  | committingUnsaved => exact writesJournals_saveIf process _ _
  | committedUnsaved => exact writesJournals_saveIf process _ _
  | _ => exact ⟨_, rfl⟩

theorem EpilogueStep.writesJournals {process next : Process} {action : EpilogueAction}
    (stepped : EpilogueStep process action next) : WritesJournals process next := by
  cases stepped with
  | recordFailed => exact writesJournals_saveIf process _ _
  | supersedeFailed => exact writesJournals_saveIf process _ _
  | _ => exact ⟨_, rfl⟩

theorem Step.blobs_cases {deployment : Deployment} {process next : Process}
    {action : ProcessAction} (stepped : Step deployment process action next) :
    next.world.blobs = process.world.blobs ∨
      ∃ index inner path task task', action = .ingest (.worker index inner) ∧
        process.run.pipe.set[index]? = some ⟨path, .running task⟩ ∧
        task.step deployment process.run.context process.world.files process.world.blobs inner =
          some (next.world.blobs, task') := by
  cases stepped with
  | prologue taken =>
      obtain ⟨journals, world⟩ := taken.writesJournals
      exact .inl (by rw [world])
  | ingest taken =>
      cases taken with
      | pipeline => exact .inl rfl
      | worker phase found moved => exact .inr ⟨_, _, _, _, _, rfl, found, moved⟩
      | commit phase committing recorded moved =>
          obtain ⟨journals, world⟩ := moved.writesJournals
          exact .inl (by rw [world])
  | epilogue taken =>
      obtain ⟨journals, world⟩ := taken.writesJournals
      exact .inl (by rw [world])
  | _ => exact .inl rfl

theorem Step.blobs_extends {deployment : Deployment} {process next : Process}
    {action : ProcessAction} (stepped : Step deployment process action next) :
    WriteOnce.Extends process.world.blobs next.world.blobs := by
  rcases stepped.blobs_cases with same | ⟨index, inner, path, task, task', -, -, moved⟩
  · rw [same]
    exact WriteOnce.Extends.refl _
  · exact FileTask.step_extends moved

theorem Step.sources_eq {deployment : Deployment} {process next : Process}
    {action : ProcessAction} (stepped : Step deployment process action next)
    (unedited : ∀ path contents, action ≠ .edit path contents) :
    next.world.files = process.world.files := by
  cases stepped with
  | prologue taken =>
      obtain ⟨journals, world⟩ := taken.writesJournals
      rw [world]
  | ingest taken =>
      cases taken with
      | commit phase committing recorded moved =>
          obtain ⟨journals, world⟩ := moved.writesJournals
          rw [world]
      | _ => rfl
  | epilogue taken =>
      obtain ⟨journals, world⟩ := taken.writesJournals
      rw [world]
  | edit => exact (unedited _ _ rfl).elim
  | _ => rfl

def landing (process : Process) : ProcessAction → List CatalogRow
  | .land =>
      match process.run.request with
      | some ⟨rows, .inFlight⟩ => rows
      | _ => []
  | _ => []

theorem Step.catalog_eq {deployment : Deployment} {process next : Process}
    {action : ProcessAction} (stepped : Step deployment process action next) :
    next.world.catalog = process.world.catalog ++ process.landing action := by
  cases stepped with
  | prologue taken =>
      obtain ⟨journals, world⟩ := taken.writesJournals
      simp [world, landing]
  | ingest taken =>
      cases taken with
      | commit phase committing recorded moved =>
          obtain ⟨journals, world⟩ := moved.writesJournals
          simp [world, landing]
      | _ => simp [setPipe, landing]
  | epilogue taken =>
      obtain ⟨journals, world⟩ := taken.writesJournals
      simp [world, landing]
  | land flying => simp [landing, flying]
  | _ => simp [landing, setPhase]

end Process

end AntiEntropator.Ingest
